/-
  RemoteCall.Proofs.Pool.Stepping
  ───────────────────────────────
  **WHAT BECOMES OF ONE CONNECTION.**

  Whatever happens to a pool, a connection that is there before and afterwards
  has done one of a few things (`Connection.Steps`):

      stays, kept     — nothing, or a handle was taken or dropped
      asked, letGo    — a call waits, or is let go of
      attached        — its attempt has led to a link
      responded       — a response has arrived on its link
      failed          — its attempt or its link has failed
      reconsidered    — the directory has changed
      advanced        — it has done what was due

  When all connections move, each has its turn with the ledger that those
  before it have left (`InTurn`).

  Main statements:
    • `InTurn.grows`, `InTurn.get?`  — what the others do to the ledger,
    • `Tidy.steps`                   — the list is complete,
    • `removed_cases`, `added_cases` — connections that are gone, and new ones,
    • `Run.follow_steps`             — a connection through a run,
    • `Run.settled_since`            — what is settled stays so.
-/
import RemoteCall.Proofs.Pool.Correlation
import RemoteCall.Proofs.Pool.RetryBudget

namespace RemoteCall

namespace Pool

variable {effects : List Effect} {history : List Moment} {p : Pool} {event : Event}
  {key : ConnectionKey} {c c' : Connection} {f : Connection → Ledger → Moved} {l : Ledger}

/-! ## §1. Taking turns. -/

/-- The connection has its turn, when those before it have had theirs. -/
def InTurn (f : Connection → Ledger → Moved) (p : Pool) (c : Connection) (l : Ledger) : Prop :=
  ∃ before after, p.connections = before ++ c :: after ∧ l = (moveAll f before p.ledger).2.1

/-- Each connection is afterwards what its turn has made of one. -/
theorem of_mem_moved {cs : List Connection} (hc' : c' ∈ (moveAll f cs l).1) :
    ∃ before c after, cs = before ++ c :: after
      ∧ c' = (f c (moveAll f before l).2.1).connection := by
  induction cs generalizing l with
  | nil => exact absurd hc' List.not_mem_nil
  | cons c rest ih =>
    rcases List.mem_cons.mp hc' with rfl | hrest
    · exact ⟨[], c, rest, rfl, rfl⟩
    · obtain ⟨before, d, after, hsplit, heq⟩ := ih hrest
      exact ⟨c :: before, d, after, congrArg (c :: ·) hsplit, heq⟩

/-- The ledger grows until a connection has its turn, and afterwards. -/
theorem InTurn.grows (hf : ∀ (c : Connection) (l : Ledger), l.Grows (f c l).ledger)
    (h : InTurn f p c l) :
    p.ledger.Grows l ∧ (f c l).ledger.Grows (moveAll f p.connections p.ledger).2.1 := by
  obtain ⟨before, after, hsplit, rfl⟩ := h
  refine ⟨grows_moveAll hf before p.ledger, ?_⟩
  rw [hsplit, ledger_moveAll_append]
  exact grows_moveAll hf after _

/-- **The others leave alone the calls that are held by the connection** and are open. -/
theorem InTurn.get?
    (hf : ∀ (c : Connection) (l : Ledger) {id : CallId}, id ∉ c.calls.map (·.id) →
      (f c l).ledger.get? id = l.get? id)
    (haccounts : Accounts history p) (h : InTurn f p c l) {call : PendingCall}
    (hcall : call ∈ c.calls) (hopen : p.ledger.isFinished call.id = false) :
    l.get? call.id = p.ledger.get? call.id
      ∧ (moveAll f p.connections p.ledger).2.1.get? call.id
        = (f c l).ledger.get? call.id := by
  obtain ⟨before, after, hsplit, rfl⟩ := h
  have hopen' : p.ledger.isOpen call.id = true := Ledger.isOpen_iff.mpr hopen
  -- the numbers of open calls are distinct
  have hnodup := haccounts.held_nodup
  rw [hsplit, held_append, held_cons, stillOpen_append, stillOpen_append, List.map_append,
    List.map_append] at hnodup
  have hown : call.id ∈ (stillOpen p.ledger (c.calls.map (c.key, ·))).map (·.2.id) :=
    List.mem_map.mpr ⟨(c.key, call),
      mem_stillOpen.mpr ⟨List.mem_map_of_mem hcall, hopen'⟩, rfl⟩
  have hopenIn : ∀ cs, call.id ∈ (held cs).map (·.2.id) →
      call.id ∈ (stillOpen p.ledger (held cs)).map (·.2.id) := by
    intro cs hmem
    obtain ⟨x, hx, hid⟩ := List.mem_map.mp hmem
    exact List.mem_map.mpr ⟨x, mem_stillOpen.mpr ⟨hx, hid ▸ hopen'⟩, hid⟩
  have hbefore : call.id ∉ (held before).map (·.2.id) := fun hmem =>
    (List.nodup_append.mp hnodup).2.2 _ (hopenIn before hmem) _ (List.mem_append_left _ hown) rfl
  have hafter : call.id ∉ (held after).map (·.2.id) := fun hmem =>
    (List.nodup_append.mp (List.nodup_append.mp hnodup).2.1).2.2 _ hown _ (hopenIn after hmem) rfl
  refine ⟨get?_moveAll hf hbefore p.ledger, ?_⟩
  rw [hsplit, ledger_moveAll_append]
  exact get?_moveAll hf hafter _

end Pool

/-! ## §2. One connection. -/

open Pool in
/-- What may become of a connection when something happens to its pool. -/
inductive Connection.Steps (p : Pool) (event : Pool.Event) (c : Connection) :
    Connection → Prop where
  | stays : Steps p event c c
  /-- A handle was taken or dropped. -/
  | kept (handles : Nat) : Steps p event c { c with handles }
  /-- A call is taken up, and waits. -/
  | asked {env : Surroundings} {now : Time} {call : PendingCall} :
    event = .look env now (.command (.call c.key call)) → p.ledger.isFinished call.id = false →
      Steps p event c { c with waiting := c.waiting ++ [call] }
  /-- A call is let go of. -/
  | letGo {env : Surroundings} {now : Time} {id : CallId} {c' : Connection} {sent : List Effect} :
    event = .look env now (.command (.abort id)) → c.cancel? env id = some (c', sent) →
      Steps p event c c'
  /-- The attempt has led to a link. -/
  | attached {env : Surroundings} {now : Time} {peer : PeerName} {link : LinkId}
      {candidates : List PeerName} :
    event = .look env now (.notice (.connected c.key c.generation peer link)) →
      c.phase = .connecting candidates → Steps p event c (c.attach peer link).1
  /-- A response has arrived. -/
  | responded {env : Surroundings} {now : Time} {frame : ResponseFrame} :
    event = .look env now (.notice (.response c.key c.generation frame)) →
      (p.after event).1.ledger = (c.respond p.config frame p.ledger).ledger →
        Steps p event c (c.respond p.config frame p.ledger).connection
  /-- The attempt has failed. -/
  | attemptFailed {env : Surroundings} {now : Time} {e : Failure} {candidates : List PeerName} :
    event = .look env now (.notice (.connectFailed c.key c.generation e)) →
      c.phase = .connecting candidates →
        (p.after event).1.ledger = (c.lose p.config e p.ledger).ledger →
          Steps p event c (c.lose p.config e p.ledger).connection
  /-- The link has failed. -/
  | linkFailed {env : Surroundings} {now : Time} {e : Failure} {live : Live} :
    event = .look env now (.notice (.failed c.key c.generation e)) → c.phase = .connected live →
      (p.after event).1.ledger = (c.lose p.config e p.ledger).ledger →
        Steps p event c (c.lose p.config e p.ledger).connection
  /-- The directory has changed. -/
  | reconsidered {env : Surroundings} {now : Time} {directory : Directory} {l : Ledger} :
    event = .look env now (.directory directory) →
      InTurn (Connection.reconsider env p.config now) p c l →
        Steps p event c (c.reconsider env p.config now l).connection
  /-- The connection has done what was due. -/
  | advanced {env : Surroundings} {now : Time} {l : Ledger} :
    event = .advance env now → InTurn (Connection.advance env p.config now) p c l →
      Steps p event c (c.advance env p.config now l).connection

namespace Pool

variable {effects : List Effect} {p : Pool} {event : Event} {key : ConnectionKey}
  {c c' : Connection}

/-- Connections with the same key are the same. -/
theorem Tidy.eq_of_key (h : Tidy effects p) (hold : p.connection? key = some c) {d : Connection}
    (hd : d ∈ p.connections) (hkey : d.key = key) : d = c := by
  have hfind := connection?_of_mem h.keys hd
  rw [hkey, hold] at hfind
  exact (Option.some.inj hfind).symm

/-- All connections have moved in turn. -/
theorem Tidy.inTurn (h : Tidy effects p) (hold : p.connection? key = some c)
    {f : Connection → Ledger → Moved}
    (hf : ∀ (c : Connection) (l : Ledger), (f c l).connection.key = c.key)
    (hc' : c' ∈ (moveAll f p.connections p.ledger).1) (hkey : c'.key = key) :
    ∃ l, InTurn f p c l ∧ c' = (f c l).connection := by
  obtain ⟨before, d, after, hsplit, rfl⟩ := of_mem_moved hc'
  have hd : d ∈ p.connections := by
    rw [hsplit]
    exact List.mem_append_right _ List.mem_cons_self
  rw [hf] at hkey
  obtain rfl := h.eq_of_key hold hd hkey
  exact ⟨_, ⟨before, after, hsplit, rfl⟩, rfl⟩

/-- One of the connections is changed. -/
theorem Tidy.of_modify (h : Tidy effects p) (hold : p.connection? key = some c)
    (other : ConnectionKey) {f : Connection → Connection} (hf : ∀ c, (f c).key = c.key)
    (hc' : c' ∈ (p.modify other f).connections) (hkey : c'.key = key) :
    c' = c ∨ (other = key ∧ c' = f c) := by
  obtain ⟨d, hd, rfl⟩ := List.mem_map.mp hc'
  by_cases hother : d.key = other
  · rw [if_pos hother] at hkey ⊢
    rw [hf] at hkey
    obtain rfl := h.eq_of_key hold hd hkey
    exact .inr ⟨hother.symm.trans hkey, rfl⟩
  · rw [if_neg hother] at hkey ⊢
    exact .inl (h.eq_of_key hold hd hkey)

/-- A connection that was there is found where another may have been added. -/
theorem Tidy.of_withConnection (h : Tidy effects p) (hold : p.connection? key = some c)
    (now : Time) (other : ConnectionKey) {f : Connection → Connection}
    (hf : ∀ c, (f c).key = c.key)
    (hc' : c' ∈ ((p.withConnection now other).modify other f).connections)
    (hkey : c'.key = key) : c' = c ∨ (other = key ∧ c' = f c) := by
  cases hfind : p.connection? other with
  | some d =>
    have hsame : p.withConnection now other = p := by
      unfold Pool.withConnection
      rw [hfind]
    rw [hsame] at hc'
    exact h.of_modify hold other hf hc' hkey
  | none =>
    have hadded : (p.withConnection now other).connections
        = p.connections ++ [.new other now] := by
      unfold Pool.withConnection
      rw [hfind]
    unfold modify at hc'
    rw [hadded] at hc'
    obtain ⟨d, hd, rfl⟩ := List.mem_map.mp hc'
    rcases List.mem_append.mp hd with hd | hnew
    · exact h.of_modify hold other hf (List.mem_map.mpr ⟨d, hd, rfl⟩) hkey
    · -- the new one has another key
      rw [List.mem_singleton.mp hnew, show (Connection.new other now).key = other from rfl,
        if_pos rfl, hf] at hkey
      rw [show other = key from hkey, hold] at hfind
      cases hfind

theorem Tidy.of_cancelIn (h : Tidy effects p) (hold : p.connection? key = some c)
    {env : Surroundings} {id : CallId} (hc' : c' ∈ (cancelIn env id p.connections).1)
    (hkey : c'.key = key) : c' = c ∨ ∃ sent, c.cancel? env id = some (c', sent) := by
  have hone : ∀ cs : List Connection, (∀ d ∈ cs, d ∈ p.connections) →
      c' ∈ (cancelIn env id cs).1 → c' = c ∨ ∃ sent, c.cancel? env id = some (c', sent) := by
    intro cs hcs hmem
    induction cs with
    | nil => exact absurd hmem List.not_mem_nil
    | cons d rest ih =>
      unfold cancelIn at hmem
      split at hmem
      · next d' sent hcancel =>
        rcases List.mem_cons.mp hmem with rfl | hrest
        · have hd : d.key = key := (Connection.moves_cancel hcancel).key.symm.trans hkey
          obtain rfl := h.eq_of_key hold (hcs d List.mem_cons_self) hd
          exact .inr ⟨sent, hcancel⟩
        · exact .inl (h.eq_of_key hold (hcs c' (List.mem_cons_of_mem _ hrest)) hkey)
      · rcases List.mem_cons.mp hmem with rfl | hrest
        · exact .inl (h.eq_of_key hold (hcs c' List.mem_cons_self) hkey)
        · exact ih (fun x hx => hcs x (List.mem_cons_of_mem _ hx)) hrest
  exact hone p.connections (fun _ hd => hd) hc'

/-- A notice moves the connection that it is for. -/
theorem Tidy.steps_notice {q : Pool} (h : Tidy effects q) (hold : q.connection? key = some c)
    (hconfig : q.config = p.config) (hsame : q.ledger = p.ledger) {env : Surroundings} {now : Time}
    {first : Notice} (hevent : event = .look env now (.notice first))
    (hledger : (p.after event).1.ledger = (q.notice first).1.ledger)
    (hfind : (q.notice first).1.connection? key = some c') : c.Steps p event c' := by
  have hself : q.connection? key = some c' → c.Steps p event c' := by
    intro hstill
    rw [hold] at hstill
    cases hstill
    exact .stays
  unfold Pool.notice at hfind hledger
  cases hd : q.connection? first.key with
  | none =>
    rw [hd] at hfind
    exact hself hfind
  | some d =>
    obtain ⟨hmem, hkey⟩ := mem_of_connection? hd
    rw [hd] at hfind hledger
    dsimp only at hfind hledger
    split at hfind
    · next hgeneration =>
      rw [if_pos hgeneration] at hledger
      -- the connection is the one that moves, or another
      have hsettle : ∀ moved : Moved, moved.connection.key = d.key →
          (q.settle moved).1.connection? key = some c' →
          (c = d → c.Steps p event moved.connection) → c.Steps p event c' := by
        intro moved hmoved hfind hsteps
        rw [← hkey] at hd
        obtain ⟨hown, hothers⟩ := connection?_settle hd moved hmoved
        by_cases hsame : key = d.key
        · subst hsame
          rw [hown] at hfind
          cases hfind
          exact hsteps (h.eq_of_key hold hmem rfl).symm
        · rw [hothers key hsame] at hfind
          exact hself hfind
      have hattended := attended q d first
      generalize q.attend d first = stepped at *
      generalize d.paysForNotice q.config q.ledger first = paying at *
      cases hattended with
      | attached hphase =>
        refine hsettle _ rfl hfind fun heq => ?_
        subst heq
        cases hkey
        cases hgeneration
        exact .attached hevent hphase
      | attemptFailed hphase =>
        refine hsettle _ (Connection.moves_lose _ _ _ _).key hfind fun heq => ?_
        subst heq
        cases hkey
        cases hgeneration
        rw [hconfig, hsame] at hledger ⊢
        exact .attemptFailed hevent hphase hledger
      | responded =>
        refine hsettle _ (Connection.moves_respond _ _ _ _).key hfind fun heq => ?_
        subst heq
        cases hkey
        cases hgeneration
        rw [hconfig, hsame] at hledger ⊢
        exact .responded hevent hledger
      | linkFailed hphase =>
        refine hsettle _ (Connection.moves_lose _ _ _ _).key hfind fun heq => ?_
        subst heq
        cases hkey
        cases hgeneration
        rw [hconfig, hsame] at hledger ⊢
        exact .linkFailed hevent hphase hledger
      | dropped => exact hself hfind
    · exact hself hfind

/-- **Whatever happens to a pool**, a connection that is there before and afterwards has done one of
these things. -/
theorem Tidy.steps (h : Tidy effects p) (hold : p.connection? key = some c)
    (hfind : (p.after event).1.connection? key = some c') : c.Steps p event c' := by
  obtain ⟨hc', hkey⟩ := mem_of_connection? hfind
  have hself : c' ∈ p.connections → c.Steps p event c' := by
    intro hmem
    obtain rfl := h.eq_of_key hold hmem hkey
    exact .stays
  cases event with
  | issue shape => exact hself hc'
  | settle id e => exact hself hc'
  | report notice => exact hself hc'
  | stop => exact hself hc'
  | send command =>
    refine hself ?_
    have hsame : (p.send command).1.connections = p.connections := by
      unfold send
      split <;> rfl
    exact hsame ▸ hc'
  | advance env now =>
    obtain ⟨l, hturn, rfl⟩ := h.inTurn hold
      (fun c l => (Connection.moves_advance env p.config now c l).key) (List.mem_filter.mp hc').1
      hkey
    exact .advanced rfl hturn
  | look env now subject =>
    have hlooked : Tidy effects { p with commands := p.commands.tail } :=
      ⟨h.keys, h.known, h.numbered⟩
    cases subject with
    | stop => exact absurd hc' List.not_mem_nil
    | timer => exact hself hc'
    | directory directory =>
      obtain ⟨l, hturn, rfl⟩ := h.inTurn hold
        (fun c l => (Connection.moves_reconsider env p.config now c l).key) hc' hkey
      exact .reconsidered rfl hturn
    | notice first =>
      have hread : Tidy effects { p with notices := p.notices.tail } :=
        ⟨h.keys, h.known, h.numbered⟩
      exact hread.steps_notice hold rfl rfl rfl rfl hfind
    | command first =>
      cases first with
      | abort id =>
        rcases hlooked.of_cancelIn hold hc' hkey with rfl | ⟨sent, hcancel⟩
        · exact .stays
        · exact .letGo rfl hcancel
      | acquire other =>
        rcases hlooked.of_withConnection hold now other
          (f := fun c => { c with handles := c.handles + 1 }) (fun _ => rfl) hc' hkey
          with rfl | ⟨-, rfl⟩
        · exact .stays
        · exact .kept _
      | release other =>
        rcases hlooked.of_modify hold other
          (f := fun c => { c with handles := c.handles - 1 }) (fun _ => rfl) hc' hkey
          with rfl | ⟨-, rfl⟩
        · exact .stays
        · exact .kept _
      | call other call =>
        replace hc' : c' ∈ (({ p with commands := p.commands.tail } : Pool).command env now
          (.call other call)).1.connections := hc'
        unfold command at hc'
        dsimp only at hc'
        split at hc'
        · exact hself hc'
        · next hopen =>
          rcases hlooked.of_withConnection hold now other
            (f := fun c => { c with waiting := c.waiting ++ [call] }) (fun _ => rfl) hc' hkey
            with rfl | ⟨rfl, rfl⟩
          · exact .stays
          · obtain ⟨-, rfl⟩ := mem_of_connection? hold
            exact .asked rfl (by simpa using hopen)

/-! ## §3. Connections that are removed or added. -/

theorem keys_modify (p : Pool) (key : ConnectionKey) {f : Connection → Connection}
    (hf : ∀ c, c.key = key → (f c).key = c.key) :
    (p.modify key f).connections.map (·.key) = p.connections.map (·.key) := by
  refine List.map_map.trans (List.map_congr_left fun c _ => ?_)
  show (if c.key = key then f c else c).key = c.key
  split
  · next hkey => exact hf c hkey
  · rfl

theorem map_cancelIn {α : Type} (g : Connection → α) {env : Surroundings} {id : CallId}
    (hg : ∀ {c c' : Connection} {sent : List Effect}, c.cancel? env id = some (c', sent) →
      g c' = g c) (cs : List Connection) : (cancelIn env id cs).1.map g = cs.map g := by
  induction cs with
  | nil => rfl
  | cons c rest ih =>
    unfold cancelIn
    split
    · next c' sent hcancel => exact congrArg (· :: rest.map g) (hg hcancel)
    · exact congrArg (g c :: ·) ih

theorem keys_cancelIn (env : Surroundings) (id : CallId) (cs : List Connection) :
    (cancelIn env id cs).1.map (·.key) = cs.map (·.key) :=
  map_cancelIn (·.key) (fun hcancel => (Connection.moves_cancel hcancel).key) cs

theorem keys_notice (p : Pool) (first : Notice) :
    (p.notice first).1.connections.map (·.key) = p.connections.map (·.key) := by
  have hsettle : ∀ moved : Moved,
      (p.settle moved).1.connections.map (·.key) = p.connections.map (·.key) :=
    fun moved => keys_modify p moved.connection.key fun c hkey => hkey.symm
  unfold Pool.notice
  split
  · next c _ =>
    split
    · have hattended := attended p c first
      generalize p.attend c first = stepped at *
      generalize c.paysForNotice p.config p.ledger first = paying at *
      cases hattended with
      | attached _ | attemptFailed _ | responded | linkFailed _ => exact hsettle _
      | dropped => rfl
    · rfl
  · rfl

theorem subset_keys_withConnection (p : Pool) (now : Time) (key : ConnectionKey)
    {f : Connection → Connection} (hf : ∀ c, (f c).key = c.key) :
    p.connections.map (·.key)
      ⊆ ((p.withConnection now key).modify key f).connections.map (·.key) := by
  rw [keys_modify _ key fun c _ => hf c]
  unfold Pool.withConnection
  split
  · exact List.Subset.refl _
  · exact List.map_subset _ (List.subset_append_left _ _)

/-- **Which connections there are** changes only when the pool stops, when what is due is done, or
when a handle or a call asks for a connection. -/
theorem keys_after (p : Pool) (event : Event) :
    (p.after event).1.connections.map (·.key) = p.connections.map (·.key)
      ∨ (∃ env now, event = .look env now .stop) ∨ (∃ env now, event = .advance env now)
      ∨ (∃ env now other, event = .look env now (.command (.acquire other)))
      ∨ ∃ env now other call, event = .look env now (.command (.call other call)) := by
  cases event with
  | issue _ | settle _ _ | report _ | stop => exact .inl rfl
  | send command =>
    refine .inl ?_
    show (p.send command).1.connections.map (·.key) = _
    unfold send
    split <;> rfl
  | advance env now => exact .inr (.inr (.inl ⟨env, now, rfl⟩))
  | look env now subject =>
    cases subject with
    | stop => exact .inr (.inl ⟨env, now, rfl⟩)
    | timer => exact .inl rfl
    | directory directory =>
      exact .inl (keys_moveAll
        (fun c l => (Connection.moves_reconsider env p.config now c l).key) p.connections p.ledger)
    | notice first => exact .inl (keys_notice _ first)
    | command first =>
      cases first with
      | abort id => exact .inl (keys_cancelIn env id p.connections)
      | release other =>
        exact .inl (keys_modify _ other (f := fun c => { c with handles := c.handles - 1 })
          fun _ _ => rfl)
      | acquire other => exact .inr (.inr (.inr (.inl ⟨env, now, other, rfl⟩)))
      | call other call => exact .inr (.inr (.inr (.inr ⟨env, now, other, call, rfl⟩)))

/-- **A connection is removed** when the pool stops, or when it is spent. -/
theorem removed_cases (hold : p.connection? key = some c)
    (hnone : (p.after event).1.connection? key = none) :
    (∃ env now, event = .look env now .stop)
      ∨ ∃ env now l, event = .advance env now ∧ InTurn (Connection.advance env p.config now) p c l
        ∧ (c.advance env p.config now l).connection.isSpent p.config now = true := by
  obtain ⟨hc, rfl⟩ := mem_of_connection? hold
  have hkey := List.mem_map_of_mem (f := (·.key)) hc
  have hgone : ∀ d ∈ (p.after event).1.connections, d.key ≠ c.key := fun d hd heq =>
    List.find?_eq_none.mp hnone d hd (beq_iff_eq.mpr heq)
  have hstays : p.connections.map (·.key) ⊆ (p.after event).1.connections.map (·.key) → False := by
    intro hsub
    obtain ⟨d, hd, heq⟩ := List.mem_map.mp (hsub hkey)
    exact hgone d hd heq
  rcases keys_after p event with hsame | hstop | ⟨env, now, rfl⟩ | ⟨env, now, other, rfl⟩
    | ⟨env, now, other, call, rfl⟩
  · exact absurd (hsame ▸ List.Subset.refl _) hstays
  · exact .inl hstop
  · obtain ⟨before, after, hsplit⟩ := List.append_of_mem hc
    obtain ⟨hmem, -⟩ :=
      moveAll_between (Connection.advance env p.config now) before after c p.ledger
    refine .inr ⟨env, now, _, rfl, ⟨before, after, hsplit, rfl⟩, ?_⟩
    rw [← hsplit] at hmem
    by_contra hkept
    refine hgone _ (List.mem_filter.mpr ⟨hmem, by simpa using hkept⟩) ?_
    exact (Connection.moves_advance env p.config now c _).key
  · exact absurd (subset_keys_withConnection { p with commands := p.commands.tail } now other
      (f := fun c => { c with handles := c.handles + 1 }) fun _ => rfl) hstays
  · refine absurd ?_ hstays
    show _ ⊆ (({ p with commands := p.commands.tail } : Pool).command env now
      (.call other call)).1.connections.map (·.key)
    unfold command
    dsimp only
    split
    · exact List.Subset.refl _
    · exact subset_keys_withConnection { p with commands := p.commands.tail } now other
        (f := fun c => { c with waiting := c.waiting ++ [call] }) fun _ => rfl

/-- Where there was no connection for a key, there is one only if it has been added. -/
theorem connection?_withConnection (hnone : p.connection? key = none) (now : Time)
    (other : ConnectionKey) {f : Connection → Connection} (hf : ∀ c, (f c).key = c.key)
    (hfind : ((p.withConnection now other).modify other f).connection? key = some c') :
    other = key ∧ c' = f (.new key now) := by
  rw [connection?_modify _ other key fun c hkey => (hf c).trans hkey] at hfind
  obtain ⟨d, hd, rfl⟩ := Option.map_eq_some_iff.mp hfind
  obtain ⟨hmem, hkey⟩ := mem_of_connection? hd
  have hgone : d ∉ p.connections := fun hold =>
    List.find?_eq_none.mp hnone d hold (beq_iff_eq.mpr hkey)
  unfold Pool.withConnection at hmem
  split at hmem
  · exact absurd hmem hgone
  · rcases List.mem_append.mp hmem with hold | hnew
    · exact absurd hold hgone
    · obtain rfl := List.mem_singleton.mp hnew
      replace hkey : other = key := hkey
      subst hkey
      exact ⟨rfl, if_pos rfl⟩

/-- **A connection is added** when a handle on it is taken or a call for it is taken up, and it
holds nothing but that call. -/
theorem added_cases (hnone : p.connection? key = none)
    (hfind : (p.after event).1.connection? key = some c') :
    (∃ env now, event = .look env now (.command (.acquire key)) ∧ c'.calls = [])
      ∨ ∃ env now call, event = .look env now (.command (.call key call)) ∧ c'.calls = [call] := by
  obtain ⟨hc', rfl⟩ := mem_of_connection? hfind
  have hkey := List.mem_map_of_mem (f := (·.key)) hc'
  have hgone : c'.key ∉ p.connections.map (·.key) := by
    intro hmem
    obtain ⟨d, hd, heq⟩ := List.mem_map.mp hmem
    exact List.find?_eq_none.mp hnone d hd (beq_iff_eq.mpr heq)
  rcases keys_after p event with hsame | ⟨env, now, rfl⟩ | ⟨env, now, rfl⟩ | ⟨env, now, other, rfl⟩
    | ⟨env, now, other, call, rfl⟩
  · exact absurd (hsame ▸ hkey) hgone
  · exact absurd hc' List.not_mem_nil
  · -- doing what is due adds no connection
    have hmoved := List.mem_map_of_mem (f := (·.key)) (List.mem_filter.mp hc').1
    rw [keys_moveAll fun c l => (Connection.moves_advance env p.config now c l).key] at hmoved
    exact absurd hmoved hgone
  · obtain ⟨rfl, heq⟩ := connection?_withConnection
      (p := { p with commands := p.commands.tail }) hnone now other
      (f := fun c => { c with handles := c.handles + 1 }) (fun _ => rfl) hfind
    exact .inl ⟨env, now, rfl, by rw [heq]; rfl⟩
  · replace hfind : (({ p with commands := p.commands.tail } : Pool).command env now
      (.call other call)).1.connection? c'.key = some c' := hfind
    unfold command at hfind
    dsimp only at hfind
    split at hfind
    · exact absurd (List.mem_map_of_mem (mem_of_connection? hfind).1) hgone
    · obtain ⟨rfl, heq⟩ := connection?_withConnection
        (p := { p with commands := p.commands.tail }) hnone now other
        (f := fun c => { c with waiting := c.waiting ++ [call] }) (fun _ => rfl) hfind
      exact .inr ⟨env, now, call, rfl, by rw [heq]; rfl⟩

/-! ## §4. Runs. -/

variable {config : PoolConfig} {history earlier since : List Moment} {m first : Moment}

/-- **Following a connection through a run**, one step after the other.  What holds of the
connection for a key after some moment, and is kept by each step and by a new beginning, holds of it
ever after. -/
theorem Run.follow_steps (run : Run config history p) (key : ConnectionKey)
    (holds : List Moment → Connection → Prop)
    (start : ∀ c, first.after.connection? key = some c → holds [] c)
    (step : ∀ {since m c c'}, Run config (earlier ++ first :: since) m.before →
      m.before.Admits (earlier ++ first :: since) m.event →
      m.before.connection? key = some c → m.after.connection? key = some c' → holds since c →
      c.Steps m.before m.event c' → holds (since ++ [m]) c')
    (anew : ∀ {since m c'}, m.before.connection? key = none → IsNew m.effects m.before c' →
      holds (since ++ [m]) c')
    (hsplit : history = earlier ++ first :: since) (hc : p.connection? key = some c) :
    holds since c := by
  induction run generalizing since c with
  | start _ => exact absurd hsplit (by simp)
  | @next history p run event hadmits ih =>
    rcases List.eq_nil_or_concat since with rfl | ⟨rest, last, rfl⟩
    · obtain ⟨-, hlast⟩ := List.append_inj' hsplit rfl
      cases hlast
      exact start c hc
    · rw [List.concat_eq_append] at hsplit ⊢
      rw [← List.cons_append, ← List.append_assoc] at hsplit
      obtain ⟨rfl, hlast⟩ := List.append_inj' hsplit rfl
      cases hlast
      rcases run.accounts.tidy.connection?_after hc with ⟨old, hold, -⟩ | ⟨hnone, hnew⟩
      · exact step run hadmits hold hc (ih rfl hold) (run.accounts.tidy.steps hold hc)
      · exact anew hnone hnew

/-- **An outcome stays, and its call is not sent any more.** -/
theorem Run.settled_since (run : Run config history p) (hsplit : history = earlier ++ m :: since)
    {id : CallId} (hfin : m.after.ledger.isFinished id = true) :
    p.ledger.get? id = m.after.ledger.get? id
      ∧ ∀ link call frame taken, Effect.send link call frame taken ∈ effectsOf since →
        frame.kind = .call → call.id ≠ id := by
  induction run generalizing since with
  | start _ => exact absurd hsplit (by simp)
  | @next history p run event hadmits ih =>
    rcases List.eq_nil_or_concat since with rfl | ⟨rest, last, rfl⟩
    · obtain ⟨-, hlast⟩ := List.append_inj' hsplit rfl
      cases hlast
      exact ⟨rfl, fun _ _ _ _ hmem => absurd hmem List.not_mem_nil⟩
    · rw [List.concat_eq_append, ← List.cons_append, ← List.append_assoc] at hsplit
      obtain ⟨hhistory, hlast⟩ := List.append_inj' hsplit rfl
      cases hlast
      obtain ⟨hsame, hnone⟩ := ih hhistory
      have hstill : p.ledger.isFinished id = true := by
        rw [Ledger.isFinished_eq, hsame, ← Ledger.isFinished_eq]
        exact hfin
      have hgrows := (run.accounts.balances hadmits).grows
      refine ⟨(hgrows.get?_of_isFinished hstill).trans hsame,
        fun link call frame taken hmem hkind => ?_⟩
      rw [List.concat_eq_append, effectsOf_concat] at hmem
      rcases List.mem_append.mp hmem with hold | hnew
      · exact hnone link call frame taken hold hkind
      · -- a call that is sent is open afterwards
        have hcall : (Effect.send link call frame taken).isCall = true := by
          show (frame.kind == .call) = true
          rw [hkind]
          rfl
        obtain ⟨x, -, hopen, _, _, _, heq⟩ := run.accounts.of_mem_effects hnew hcall
        cases heq
        rintro rfl
        rw [hgrows.isFinished hstill] at hopen
        cases hopen

/-- Calls that are held under one number, and open, are one call of one connection. -/
theorem Accounts.eq_of_id (h : Accounts history p) {x y : ConnectionKey × PendingCall}
    (hx : x ∈ held p.connections) (hy : y ∈ held p.connections)
    (hopen : p.ledger.isFinished x.2.id = false) (hid : y.2.id = x.2.id) : y = x := by
  have hopen' : p.ledger.isOpen x.2.id = true := Ledger.isOpen_iff.mpr hopen
  exact List.inj_on_of_nodup_map h.held_nodup (mem_stillOpen.mpr ⟨hy, hid ▸ hopen'⟩)
    (mem_stillOpen.mpr ⟨hx, hopen'⟩) hid

/-- No call that waits on a link and is open has the number of one in flight on it. -/
theorem Accounts.notMem_of_waiting (h : Accounts history p) (hc : c ∈ p.connections) {live : Live}
    (hphase : c.phase = .connected live) {call : PendingCall} (hwaiting : call ∈ c.waiting)
    (hopen : p.ledger.isFinished call.id = false) : call.id ∉ live.calls.map (·.id) := by
  intro hmem
  obtain ⟨other, hother, hid⟩ := List.mem_map.mp hmem
  have hflight : other ∈ c.calls := by
    rw [Connection.calls_of_connected hphase]
    exact List.mem_append_left _ hother
  have hsame := h.eq_of_id (mem_held.mpr ⟨c, hc, rfl, List.mem_append_right _ hwaiting⟩)
    (mem_held.mpr ⟨c, hc, rfl, hflight⟩) (x := (c.key, call)) (y := (c.key, other)) hopen hid
  obtain rfl : other = call := (Prod.mk.inj hsame).2
  exact h.not_in_flight hc hphase hwaiting (Ledger.isOpen_iff.mpr hopen) hother

section TwoCalls

/-- What has happened when these events have happened one after the other, and what the pool is
like then. -/
def replay (p : Pool) : List Event → List Moment × Pool
  | [] => ([], p)
  | event :: rest =>
    let (later, q) := replay (p.after event).1 rest
    (⟨p, event⟩ :: later, q)

/-- Two calls are asked for and sent on the same link. -/
def twoCallsSent : List Moment × Pool :=
  replay { config := {}, subscription := ⟨0⟩ }
    [.issue .unit, .issue .unit, .send (.call oneAgent oneCall), .send (.call oneAgent otherCall),
      .look oneAddress 0 (.command (.call oneAgent oneCall)),
      .look oneAddress 0 (.command (.call oneAgent otherCall)), .advance oneAddress 0,
      .report (.connected oneAgent 1 (.unix ⟨"/a"⟩) 9),
      .look oneAddress 0 (.notice (.connected oneAgent 1 (.unix ⟨"/a"⟩) 9)), .advance oneAddress 0]

theorem run_twoCallsSent : Run {} twoCallsSent.1 twoCallsSent.2 := by
  have start : Run {} [] { config := {}, subscription := ⟨0⟩ } :=
    Run.start (show Pool.new {} {} = _ from rfl)
  have issued := (start.next (.issue .unit) trivial).next (.issue .unit) trivial
  have asked := (issued.next (.send (.call oneAgent oneCall)) ⟨by decide, by decide, rfl⟩).next
    (.send (.call oneAgent otherCall)) ⟨by decide, by decide, rfl⟩
  have sought := ((asked.next (.look oneAddress 0 (.command (.call oneAgent oneCall)))
    ⟨rfl, rfl⟩).next (.look oneAddress 0 (.command (.call oneAgent otherCall)))
      ⟨rfl, rfl⟩).next (.advance oneAddress 0) trivial
  have attached := (sought.next (.report (.connected oneAgent 1 (.unix ⟨"/a"⟩) 9)) trivial).next
    (.look oneAddress 0 (.notice (.connected oneAgent 1 (.unix ⟨"/a"⟩) 9))) ⟨rfl, rfl⟩
  exact attached.next (.advance oneAddress 0) trivial

end TwoCalls

end Pool

end RemoteCall

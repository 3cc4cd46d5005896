/-
  RemoteCall.Proofs.Pool.Looking
  ──────────────────────────────
  **WHAT THE POOL LOOKS AT.**

  A pool is in order (`Pool.Tidy`) when there is one connection for each key,
  its calls have been issued, and the sequence numbers of its links are in
  order.  Whatever the pool looks at and whatever it does by itself, it stays in
  order and keeps its calls; `Pool.pays` says which calls pay for it.

  Main statements:
    • `Tidy.advance`, `Tidy.notice`, `Tidy.directoryChanged`, `Tidy.abort`,
      `Tidy.acquire`, `Tidy.release` — nothing is lost or doubled,
    • `Tidy.adopt`    — a new call is held, and no other,
    • `Tidy.teardown` — a pool that stops settles everything that it holds.
-/
import RemoteCall.Proofs.Pool.Keeping

namespace RemoteCall

/-- The calls of a connection that pay for what a notice reports. -/
def Connection.paysForNotice (config : PoolConfig) (l : Ledger) (c : Connection) :
    Notice → List PendingCall
  | .connectFailed _ _ e =>
    match c.phase with
    | .connecting _ => c.paysForLoss e
    | _ => []
  | .failed _ _ e =>
    match c.phase with
    | .connected _ => c.paysForLoss e
    | _ => []
  | .response _ _ frame => c.paysForResponse config frame l
  | .connected _ _ _ _ => []

namespace Pool

/-! ## §1. Pools in order. -/

/-- The calls that pay for what the pool looks at, with the keys of their connections. -/
def pays (env : Surroundings) (p : Pool) : Subject → List (ConnectionKey × PendingCall)
  | .notice first =>
    match p.connection? first.key with
    | some c =>
      if c.generation = first.generation then
        (c.paysForNotice p.config p.ledger first).map (c.key, ·)
      else []
    | none => []
  | .directory _ => p.connections.flatMap fun c => (c.paysForDirectory env).map (c.key, ·)
  | _ => []

/-- There is one connection for each key, its calls have been issued, and its sequence numbers are
in order after these effects. -/
structure Tidy (effects : List Effect) (p : Pool) : Prop where
  keys : (p.connections.map (·.key)).Nodup
  known : ∀ x ∈ held p.connections, p.ledger.knows x.2.id = true
  numbered : ∀ c ∈ p.connections, c.NumberedIn effects

variable {exact : Prop} {p q : Pool} {effects : List Effect}
  {paying : List (ConnectionKey × PendingCall)}

/-- Calls that are kept have been issued. -/
theorem Keeps.known {cs cs' : List Connection} {l l' : Ledger} (h : Keeps exact paying cs l cs' l')
    (hk : ∀ x ∈ held cs, l.knows x.2.id = true) : ∀ x ∈ held cs', l'.knows x.2.id = true := by
  intro x hx
  obtain ⟨old, hold, heq⟩ := h.ids x hx
  rw [← heq]
  exact h.grows.knows (hk old hold)

/-- The connection for a key stands between others with other keys. -/
theorem modify_between (hkeys : (p.connections.map (·.key)).Nodup) {c : Connection}
    (hc : c ∈ p.connections) (f : Connection → Connection) :
    ∃ before after, p.connections = before ++ c :: after
      ∧ (p.modify c.key f).connections = before ++ f c :: after := by
  obtain ⟨before, after, hsplit⟩ := List.append_of_mem hc
  refine ⟨before, after, hsplit, ?_⟩
  rw [hsplit, List.map_append, List.map_cons, List.nodup_middle, List.nodup_cons,
    ← List.map_append] at hkeys
  -- the others have other keys, so they are left alone
  have hothers : ∀ ds : List Connection, (∀ d ∈ ds, d ∈ before ++ after) →
      ds.map (fun d => if d.key = c.key then f d else d) = ds := by
    intro ds hds
    refine (List.map_congr_left fun d hd => ?_).trans (List.map_id ds)
    exact if_neg fun heq => hkeys.1 (List.mem_map.mpr ⟨d, hds d hd, heq⟩)
  show p.connections.map (fun d => if d.key = c.key then f d else d) = _
  rw [hsplit, List.map_append, List.map_cons, if_pos rfl,
    hothers before fun d hd => List.mem_append_left _ hd,
    hothers after fun d hd => List.mem_append_right _ hd]

/-- **One connection of the pool moves.** -/
theorem Tidy.settle (h : Tidy effects p) {c : Connection} (hc : c ∈ p.connections)
    {paying : List PendingCall} (moved : Moved)
    (hmoved : c.Conserves exact paying p.ledger moved.connection moved.ledger)
    (hnumbered : moved.connection.NumberedIn effects) :
    Keeps exact (paying.map (c.key, ·)) p.connections p.ledger (p.settle moved).1.connections
        (p.settle moved).1.ledger
      ∧ Tidy (effects ++ (p.settle moved).2) (p.settle moved).1 := by
  obtain ⟨before, after, hsplit, hmodify⟩ :=
    modify_between h.keys hc (fun _ => moved.connection)
  have hconnections : (p.settle moved).1.connections = before ++ moved.connection :: after := by
    show (p.modify moved.connection.key (fun _ => moved.connection)).connections = _
    rw [hmoved.key]
    exact hmodify
  have hkeeps := keeps_between hmoved before after
  rw [← hsplit, ← hconnections] at hkeeps
  refine ⟨hkeeps, ?_, hkeeps.known h.known, ?_⟩
  · -- the keys are the same
    have hkeys := h.keys
    rw [hconnections, List.map_append, List.map_cons, hmoved.key]
    rw [hsplit, List.map_append, List.map_cons] at hkeys
    exact hkeys
  · intro d hd
    rw [hconnections, List.mem_append, List.mem_cons] at hd
    rcases hd with hd | rfl | hd
    · exact (h.numbered d (by rw [hsplit]; exact List.mem_append_left _ hd)).append _
    · exact hnumbered.append _
    · refine (h.numbered d ?_).append _
      rw [hsplit]
      exact List.mem_append_right _ (List.mem_cons_of_mem _ hd)

/-- What changes no call and no link. -/
theorem Tidy.same (h : Tidy effects p) (hconnections : q.connections = p.connections)
    (hledger : q.ledger = p.ledger) (more : List Effect) :
    Keeps exact [] p.connections p.ledger q.connections q.ledger ∧ Tidy (effects ++ more) q := by
  rw [hconnections, hledger]
  refine ⟨Keeps.refl _ _, ?_, ?_, ?_⟩
  · rw [hconnections]
    exact h.keys
  · rw [hconnections, hledger]
    exact h.known
  · rw [hconnections]
    exact fun c hc => (h.numbered c hc).append more

/-! ## §2. Whatever is due. -/

/-- A connection that is spent after it has done what is due holds no call. -/
theorem calls_of_spent_advance {env : Surroundings} {config : PoolConfig} {now : Time}
    {cs : List Connection} {l : Ledger} {c : Connection}
    (hc : c ∈ (moveAll (Connection.advance env config now) cs l).1)
    (hspent : c.isSpent config now = true) : c.calls = [] := by
  induction cs generalizing l with
  | nil => exact absurd hc (List.not_mem_nil)
  | cons d rest ih =>
    rcases List.mem_cons.mp hc with rfl | hc
    · rw [Connection.advance_eq] at hspent ⊢
      exact calls_of_isSpent_noteDemand hspent
    · exact ih hc

theorem held_advance (env : Surroundings) (now : Time) (p : Pool) :
    held (p.advance env now).1.connections
      = held (moveAll (Connection.advance env p.config now) p.connections p.ledger).1 :=
  held_filter fun _ hc hspent => calls_of_spent_advance hc (by simpa using hspent)

/-- **Doing what is due** keeps a pool in order. -/
theorem Tidy.advance (h : Tidy effects p) (env : Surroundings) (now : Time) :
    Keeps (HasRoom (effects ++ (p.advance env now).2)) [] p.connections p.ledger
        (p.advance env now).1.connections (p.advance env now).1.ledger
      ∧ Tidy (effects ++ (p.advance env now).2) (p.advance env now).1 := by
  obtain ⟨hkeeps, hnumbered, hkeys⟩ := keeps_moveAll
    (f := Connection.advance env p.config now) (fun _ => [])
    (fun hn _ => Connection.conserves_advance hn env p.config now _) h.numbered h.known
  -- no call pays
  have hfree : (p.connections.flatMap fun c : Connection =>
      ([] : List PendingCall).map (c.key, ·)) = [] := by simp
  rw [hfree] at hkeeps
  have hheld := held_advance env now p
  have heffects : ∃ more, (p.advance env now).2
      = (moveAll (Connection.advance env p.config now) p.connections p.ledger).2.2 ++ more :=
    ⟨_, rfl⟩
  obtain ⟨more, heffects⟩ := heffects
  rw [heffects, ← List.append_assoc]
  -- the connections that are removed hold no call
  have hkeeps' : Keeps (HasRoom (effects
      ++ (moveAll (Connection.advance env p.config now) p.connections p.ledger).2.2)) []
      p.connections p.ledger (p.advance env now).1.connections (p.advance env now).1.ledger := by
    refine ⟨hkeeps.grows, ?_, ?_, hkeeps.frame⟩
    · rw [hheld]
      exact hkeeps.split
    · rw [hheld]
      exact hkeeps.ids
  refine ⟨hkeeps'.mono fun hroom => hroom.of_append, ?_, hkeeps'.known h.known, ?_⟩
  · exact (hkeys ▸ h.keys).sublist (List.filter_sublist.map _)
  · exact fun c hc => (hnumbered c (List.mem_filter.mp hc).1).append more

/-! ## §3. Notices and the directory. -/

theorem mem_of_connection? {key : ConnectionKey} {c : Connection}
    (h : p.connection? key = some c) : c ∈ p.connections ∧ c.key = key :=
  ⟨List.mem_of_find?_eq_some h, by simpa using List.find?_some h⟩

/-- What may become of a notice that belongs to the current attempt, and which calls pay for it. -/
inductive Attended (p : Pool) (c : Connection) : Notice → List PendingCall → Stepped → Prop where
  /-- The attempt has led to a link. -/
  | attached {candidates : List PeerName} {key : ConnectionKey} {generation : Nat}
      {peer : PeerName} {link : LinkId} :
    c.phase = .connecting candidates →
      Attended p c (.connected key generation peer link) []
        (p.settle ⟨(c.attach peer link).1, p.ledger, (c.attach peer link).2⟩)
  /-- The attempt has failed. -/
  | attemptFailed {candidates : List PeerName} {key : ConnectionKey} {generation : Nat}
      {e : Failure} :
    c.phase = .connecting candidates →
      Attended p c (.connectFailed key generation e) (c.paysForLoss e)
        (p.settle (c.lose p.config e p.ledger))
  /-- A response has arrived. -/
  | responded {key : ConnectionKey} {generation : Nat} {frame : ResponseFrame} :
    Attended p c (.response key generation frame) (c.paysForResponse p.config frame p.ledger)
      (p.settle (c.respond p.config frame p.ledger))
  /-- The link has failed. -/
  | linkFailed {live : Live} {key : ConnectionKey} {generation : Nat} {e : Failure} :
    c.phase = .connected live →
      Attended p c (.failed key generation e) (c.paysForLoss e)
        (p.settle (c.lose p.config e p.ledger))
  /-- The notice comes too late. -/
  | dropped {first : Notice} : Attended p c first [] (p, dropNotice first)

theorem attended (p : Pool) (c : Connection) (first : Notice) :
    Attended p c first (c.paysForNotice p.config p.ledger first) (p.attend c first) := by
  unfold Pool.attend Connection.paysForNotice
  cases first with
  | connected key generation peer link =>
    cases hphase : c.phase with
    | connecting candidates => exact .attached hphase
    | _ => exact .dropped
  | connectFailed key generation e =>
    cases hphase : c.phase with
    | connecting candidates => exact .attemptFailed hphase
    | _ => exact .dropped
  | response key generation frame => exact .responded
  | failed key generation e =>
    cases hphase : c.phase with
    | connected live => exact .linkFailed hphase
    | _ => exact .dropped

theorem Tidy.attend (h : Tidy effects p) {c : Connection} (hc : c ∈ p.connections)
    (first : Notice) :
    Keeps exact ((c.paysForNotice p.config p.ledger first).map (c.key, ·)) p.connections p.ledger
        (p.attend c first).1.connections (p.attend c first).1.ledger
      ∧ Tidy (effects ++ (p.attend c first).2) (p.attend c first).1 := by
  have hk : ∀ call ∈ c.calls, p.ledger.knows call.id = true :=
    fun call hcall => h.known (c.key, call) (mem_held.mpr ⟨c, hc, rfl, hcall⟩)
  have hattended := attended p c first
  generalize p.attend c first = stepped at *
  generalize c.paysForNotice p.config p.ledger first = paying at *
  cases hattended with
  | @attached candidates key generation peer link hphase =>
    obtain ⟨hconserves, hnumbered⟩ := Connection.conserves_attach
      (Connection.live?_of_connecting hphase) peer link p.ledger effects
    exact h.settle hc _ hconserves hnumbered
  | @attemptFailed candidates key generation e hphase =>
    exact h.settle hc _ (Connection.conserves_lose p.config e hk)
      (Connection.numberedIn_of_live?_eq_none (Connection.live?_lose e _) effects)
  | @responded key generation frame =>
    obtain ⟨hconserves, hnumbered⟩ :=
      Connection.conserves_respond p.config frame (h.numbered c hc) hk
    exact h.settle hc _ hconserves hnumbered
  | @linkFailed live key generation e hphase =>
    exact h.settle hc _ (Connection.conserves_lose p.config e hk)
      (Connection.numberedIn_of_live?_eq_none (Connection.live?_lose e _) effects)
  | dropped => exact h.same rfl rfl (dropNotice first)

/-- **A notice** is attended to or dropped. -/
theorem Tidy.notice (h : Tidy effects p) (env : Surroundings) (first : Notice) :
    Keeps exact (p.pays env (.notice first)) p.connections p.ledger (p.notice first).1.connections
        (p.notice first).1.ledger
      ∧ Tidy (effects ++ (p.notice first).2) (p.notice first).1 := by
  unfold Pool.notice pays
  dsimp only
  cases hfind : p.connection? first.key with
  | none => exact h.same rfl rfl _
  | some c =>
    dsimp only
    split
    · exact h.attend (mem_of_connection? hfind).1 first
    · exact h.same rfl rfl _

/-- **A change of the directory.** -/
theorem Tidy.directoryChanged (h : Tidy effects p) (env : Surroundings) (now : Time)
    (directory : Directory) :
    Keeps (HasRoom (effects ++ (p.directoryChanged env now directory).2))
        (p.pays env (.directory directory)) p.connections p.ledger
        (p.directoryChanged env now directory).1.connections
        (p.directoryChanged env now directory).1.ledger
      ∧ Tidy (effects ++ (p.directoryChanged env now directory).2)
          (p.directoryChanged env now directory).1 := by
  obtain ⟨hkeeps, hnumbered, hkeys⟩ := keeps_moveAll
    (f := Connection.reconsider env p.config now) (Connection.paysForDirectory env)
    (fun hn hk =>
      let ⟨hconserves, hnumbered⟩ := Connection.conserves_reconsider env p.config now hn hk
      ⟨hconserves, hnumbered.append _⟩)
    h.numbered h.known
  exact ⟨hkeeps, hkeys ▸ h.keys, hkeeps.known h.known, hnumbered⟩

/-! ## §4. Commands. -/

theorem keeps_cancelIn (env : Surroundings) {id : CallId} {l : Ledger}
    (hfin : l.isFinished id = true) {cs : List Connection} (hn : ∀ c ∈ cs, c.NumberedIn effects) :
    Keeps exact [] cs l (cancelIn env id cs).1 l
      ∧ (∀ c ∈ (cancelIn env id cs).1, c.NumberedIn effects)
      ∧ (cancelIn env id cs).1.map (·.key) = cs.map (·.key) := by
  induction cs with
  | nil => exact ⟨Keeps.refl [] l, by simp [cancelIn], rfl⟩
  | cons c rest ih =>
    have hc := hn c List.mem_cons_self
    have hrest : ∀ d ∈ rest, d.NumberedIn effects := fun d hd => hn d (List.mem_cons_of_mem _ hd)
    unfold cancelIn
    split
    · next c' sent hcancel =>
      obtain ⟨hconserves, hnumbered⟩ := Connection.conserves_cancel hcancel hfin hc
      -- the first connection that holds the call lets go of it, and the rest is not asked
      refine ⟨keeps_between hconserves [] rest, ?_, ?_⟩
      · intro d hd
        rcases List.mem_cons.mp hd with rfl | hd
        · exact hnumbered
        · exact hrest d hd
      · rw [List.map_cons, List.map_cons, hconserves.key]
    · obtain ⟨hkeeps, hnumbered, hkeys⟩ := ih hrest
      refine ⟨(Keeps.refl [c] l).append hkeeps, ?_, congrArg (c.key :: ·) hkeys⟩
      intro d hd
      rcases List.mem_cons.mp hd with rfl | hd
      · exact hc
      · exact hnumbered d hd

/-- **Letting go of a settled call.** -/
theorem Tidy.abort (h : Tidy effects p) (env : Surroundings) (now : Time) {id : CallId}
    (hfin : p.ledger.isFinished id = true) :
    Keeps exact [] p.connections p.ledger (p.command env now (.abort id)).1.connections
        (p.command env now (.abort id)).1.ledger
      ∧ Tidy (effects ++ (p.command env now (.abort id)).2) (p.command env now (.abort id)).1 := by
  obtain ⟨hkeeps, hnumbered, hkeys⟩ := keeps_cancelIn env hfin h.numbered
  refine ⟨hkeeps, ?_, hkeeps.known h.known, fun c hc => (hnumbered c hc).append _⟩
  exact hkeys ▸ h.keys

theorem key_mem_withConnection (p : Pool) (now : Time) (key : ConnectionKey) :
    ∃ c ∈ (p.withConnection now key).connections, c.key = key := by
  unfold withConnection
  split
  · next c hfind => exact ⟨c, mem_of_connection? hfind⟩
  · exact ⟨.new key now, List.mem_append_right _ List.mem_cons_self, rfl⟩

theorem ledger_withConnection (p : Pool) (now : Time) (key : ConnectionKey) :
    (p.withConnection now key).ledger = p.ledger := by
  unfold withConnection
  split <;> rfl

/-- A connection may be added. -/
theorem Tidy.withConnection (h : Tidy effects p) (now : Time) (key : ConnectionKey) :
    Tidy effects (p.withConnection now key) := by
  refine ⟨?_, ?_, ?_⟩
  · unfold Pool.withConnection
    split
    · exact h.keys
    · next hnone =>
      rw [List.map_append, List.nodup_append]
      refine ⟨h.keys, List.nodup_singleton _, ?_⟩
      -- there was no connection for the key
      intro k hk k' hk' heq
      rw [List.map_singleton, List.mem_singleton] at hk'
      obtain ⟨c, hc, rfl⟩ := List.mem_map.mp hk
      have := List.find?_eq_none.mp hnone c hc
      exact this (by rw [heq, hk']; exact beq_self_eq_true key)
  · rw [held_withConnection, ledger_withConnection]
    exact h.known
  · unfold Pool.withConnection
    split
    · exact h.numbered
    · intro c hc
      rcases List.mem_append.mp hc with hc | hc
      · exact h.numbered c hc
      · rw [List.mem_singleton.mp hc]
        exact Connection.numberedIn_of_live?_eq_none rfl effects

/-- The count of handles matters to no call. -/
theorem Tidy.modify_handles (h : Tidy effects p) (key : ConnectionKey) (f : Nat → Nat) :
    let q := p.modify key fun c => { c with handles := f c.handles }
    held q.connections = held p.connections ∧ Tidy effects q := by
  have hone : ∀ c : Connection, (if c.key = key then { c with handles := f c.handles } else c).key
      = c.key ∧ (if c.key = key then { c with handles := f c.handles } else c).calls = c.calls
      ∧ (if c.key = key then { c with handles := f c.handles } else c).live? = c.live? := by
    intro c
    split <;> exact ⟨rfl, rfl, rfl⟩
  have hheld : held (p.modify key fun c => { c with handles := f c.handles }).connections
      = held p.connections := by
    unfold held Pool.modify
    rw [List.flatMap_map]
    refine List.flatMap_congr fun c _ => ?_
    rw [(hone c).1, (hone c).2.1]
  refine ⟨hheld, ?_, ?_, ?_⟩
  · unfold Pool.modify
    rw [List.map_map]
    refine (List.map_congr_left fun c _ => ?_) ▸ h.keys
    exact ((hone c).1).symm
  · rw [hheld]
    exact h.known
  · intro d hd
    obtain ⟨c, hc, rfl⟩ := List.mem_map.mp hd
    exact Connection.numberedIn_of_live?_eq (hone c).2.2 (h.numbered c hc)

/-- **A handle is taken.** -/
theorem Tidy.acquire (h : Tidy effects p) (env : Surroundings) (now : Time) (key : ConnectionKey) :
    Keeps exact [] p.connections p.ledger (p.command env now (.acquire key)).1.connections
        (p.command env now (.acquire key)).1.ledger
      ∧ Tidy (effects ++ (p.command env now (.acquire key)).2)
          (p.command env now (.acquire key)).1 := by
  obtain ⟨hheld, htidy⟩ := (h.withConnection now key).modify_handles key (· + 1)
  constructor
  · show Keeps exact [] p.connections p.ledger _ (p.withConnection now key).ledger
    rw [ledger_withConnection]
    exact keeps_of_held_eq (hheld.trans (held_withConnection p now key)) p.ledger
  · rw [show (p.command env now (.acquire key)).2 = [] from rfl, List.append_nil]
    exact htidy

/-- **A handle is dropped.** -/
theorem Tidy.release (h : Tidy effects p) (env : Surroundings) (now : Time) (key : ConnectionKey) :
    Keeps exact [] p.connections p.ledger (p.command env now (.release key)).1.connections
        (p.command env now (.release key)).1.ledger
      ∧ Tidy (effects ++ (p.command env now (.release key)).2)
          (p.command env now (.release key)).1 := by
  obtain ⟨hheld, htidy⟩ := h.modify_handles key (· - 1)
  refine ⟨keeps_of_held_eq hheld p.ledger, ?_⟩
  rw [show (p.command env now (.release key)).2 = [] from rfl, List.append_nil]
  exact htidy

/-- **A call is taken up**: it waits on the connection for its key. -/
theorem Tidy.adopt (h : Tidy effects p) (env : Surroundings) (now : Time) (key : ConnectionKey)
    {call : PendingCall}
    (hopen : p.ledger.isFinished call.id = false) (hk : p.ledger.knows call.id = true) :
    (p.command env now (.call key call)).1.ledger = p.ledger
      ∧ (held (p.command env now (.call key call)).1.connections).Perm
          (held p.connections ++ [(key, call)])
      ∧ Tidy effects (p.command env now (.call key call)).1 := by
  have hstep : (p.command env now (.call key call)).1
      = (p.withConnection now key).modify key
          fun c => { c with waiting := c.waiting ++ [call] } := by
    unfold Pool.command
    dsimp only
    rw [if_neg (by simp [hopen])]
  have htidy := h.withConnection now key
  obtain ⟨c, hc, rfl⟩ := key_mem_withConnection p now key
  obtain ⟨before, after, hsplit, hmodify⟩ :=
    modify_between htidy.keys hc (fun c => { c with waiting := c.waiting ++ [call] })
  have hledger : ((p.withConnection now c.key).modify c.key
      fun c => { c with waiting := c.waiting ++ [call] }).ledger = p.ledger :=
    ledger_withConnection p now c.key
  -- the call is the last in the queue of its connection
  have hheld : (held ((p.withConnection now c.key).modify c.key
      fun c => { c with waiting := c.waiting ++ [call] }).connections).Perm
        (held p.connections ++ [(c.key, call)]) := by
    rw [← held_withConnection p now c.key, hmodify, hsplit, held_append, held_append, held_cons,
      held_cons, List.append_assoc]
    refine List.Perm.append_left _ ?_
    show ((c.inFlight ++ (c.waiting ++ [call])).map (c.key, ·) ++ held after).Perm _
    rw [← List.append_assoc, List.map_append, List.append_assoc, List.append_assoc]
    exact List.Perm.append_left _ List.perm_append_comm
  rw [hstep]
  refine ⟨hledger, hheld, ?_, ?_, ?_⟩
  · have hkeys := htidy.keys
    rw [hsplit, List.map_append, List.map_cons] at hkeys
    rw [hmodify, List.map_append, List.map_cons]
    exact hkeys
  · intro x hx
    rw [hledger]
    rcases List.mem_append.mp (hheld.subset hx) with hold | hnew
    · exact h.known x hold
    · rw [List.mem_singleton.mp hnew]
      exact hk
  · intro d hd
    rw [hmodify, List.mem_append, List.mem_cons] at hd
    rcases hd with hd | rfl | hd
    · exact htidy.numbered d (by rw [hsplit]; exact List.mem_append_left _ hd)
    · exact Connection.numberedIn_of_live?_eq rfl (htidy.numbered c hc)
    · refine htidy.numbered d ?_
      rw [hsplit]
      exact List.mem_append_right _ (List.mem_cons_of_mem _ hd)

/-! ## §5. Stopping. -/

/-- The ledger when every connection has been given up. -/
theorem ledger_abandonAll (p : Pool) :
    p.abandonAll.1.ledger = p.connections.foldl (fun l c => (c.abandon l).1) p.ledger := by
  unfold abandonAll
  dsimp only
  -- the effects do not matter to the ledger
  have hfold : ∀ (cs : List Connection) (l : Ledger) (sent : List Effect),
      (cs.foldl (fun (acc : Ledger × List Effect) (c : Connection) =>
        ((c.abandon acc.1).1, acc.2 ++ (c.abandon acc.1).2)) (l, sent)).1
        = cs.foldl (fun l c => (c.abandon l).1) l := by
    intro cs
    induction cs with
    | nil => intros; rfl
    | cons c rest ih => intro l sent; exact ih _ _
  exact hfold p.connections p.ledger []

theorem settled_abandon {cs : List Connection} {l : Ledger}
    (hk : ∀ x ∈ held cs, l.knows x.2.id = true) :
    l.Grows (cs.foldl (fun l c => (c.abandon l).1) l)
      ∧ ∀ x ∈ held cs, (cs.foldl (fun l c => (c.abandon l).1) l).isFinished x.2.id = true := by
  induction cs generalizing l with
  | nil => exact ⟨Ledger.Grows.refl l, by simp⟩
  | cons c rest ih =>
    have hgrows : l.Grows (c.abandon l).1 := Ledger.grows_failAll _ _ l
    obtain ⟨hrest, hsettled⟩ := ih (l := (c.abandon l).1) fun x hx =>
      hgrows.knows (hk x (List.mem_append_right _ hx))
    refine ⟨hgrows.trans hrest, ?_⟩
    intro x hx
    rcases List.mem_append.mp hx with hx | hx
    · obtain ⟨call, hcall, rfl⟩ := List.mem_map.mp hx
      -- settled by this connection, and for good
      refine hrest.isFinished (Ledger.isFinished_failAll ?_ _ ?_)
      · exact (List.perm_append_comm.map _).subset (List.mem_map_of_mem hcall)
      · exact hk (c.key, call) (List.mem_append_left _ (List.mem_map_of_mem hcall))
    · exact hsettled x hx

/-- What telling one call that the pool is gone does to a ledger, telling all that are left does. -/
theorem drainQueue_rel {R : Ledger → Ledger → Prop} (hrefl : ∀ l, R l l)
    (htrans : ∀ {l l' l''}, R l l' → R l' l'' → R l l'')
    (hfail : ∀ l id, R l (l.fail id .disconnected)) (p : Pool) :
    R p.ledger p.drainQueue.ledger := by
  unfold drainQueue
  dsimp only
  generalize p.ledger = l
  induction p.commands generalizing l with
  | nil => exact hrefl l
  | cons first rest ih =>
    refine htrans ?_ (ih _)
    cases first with
    | call _ call => exact hfail l call.id
    | _ => exact hrefl l

/-- The same for all that stopping does. -/
theorem teardown_rel {R : Ledger → Ledger → Prop} (hrefl : ∀ l, R l l)
    (htrans : ∀ {l l' l''}, R l l' → R l' l'' → R l l'')
    (hfail : ∀ l id, R l (l.fail id .disconnected)) (p : Pool) :
    R p.ledger p.teardown.1.ledger := by
  have hall : ∀ (ids : List CallId) (l : Ledger), R l (l.failAll ids .disconnected) := by
    intro ids
    induction ids with
    | nil => exact hrefl
    | cons id ids ih => exact fun l => htrans (hfail l id) (ih _)
  have habandoned : ∀ (cs : List Connection) (l : Ledger),
      R l (cs.foldl (fun l c => (c.abandon l).1) l) := by
    intro cs
    induction cs with
    | nil => exact hrefl
    | cons c rest ih => exact fun l => htrans (hall _ l) (ih _)
  have hfirst : R p.ledger p.closeQueue.abandonAll.1.ledger := by
    rw [ledger_abandonAll p.closeQueue]
    exact habandoned p.connections p.ledger
  exact htrans hfirst (drainQueue_rel hrefl htrans hfail p.closeQueue.abandonAll.1)

theorem grows_drainQueue (p : Pool) : p.ledger.Grows p.drainQueue.ledger :=
  drainQueue_rel Ledger.Grows.refl Ledger.Grows.trans (fun l id => Ledger.grows_fail l id _) p

/-- **A pool that stops** holds nothing any more, and has settled what it held. -/
theorem Tidy.teardown (h : Tidy effects p) :
    p.ledger.Grows p.teardown.1.ledger
      ∧ (∀ x ∈ held p.connections, p.teardown.1.ledger.isFinished x.2.id = true)
      ∧ p.teardown.1.connections = [] ∧ Tidy (effects ++ p.teardown.2) p.teardown.1 := by
  obtain ⟨hgrows, hsettled⟩ := settled_abandon h.known
  have hledger : p.closeQueue.abandonAll.1.ledger
      = p.connections.foldl (fun l c => (c.abandon l).1) p.ledger :=
    ledger_abandonAll p.closeQueue
  rw [← hledger] at hgrows hsettled
  have hdrained := grows_drainQueue p.closeQueue.abandonAll.1
  have hnone : p.teardown.1.connections = [] := rfl
  refine ⟨hgrows.trans hdrained, fun x hx => hdrained.isFinished (hsettled x hx), hnone, ?_⟩
  exact ⟨List.nodup_nil, by rw [hnone]; simp, by rw [hnone]; simp⟩

end Pool

end RemoteCall

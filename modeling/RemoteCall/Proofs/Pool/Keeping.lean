/-
  RemoteCall.Proofs.Pool.Keeping
  ──────────────────────────────
  **THE CONNECTIONS OF A POOL TOGETHER NEITHER LOSE NOR DOUBLE A CALL.**

  What `Connection.Conserves` says of one connection is said here of several,
  with the key of its connection beside each call (`Pool.Keeps`).  Connections
  are moved one after the other and the ledger is handed along, so the two
  statements are put together by one lemma, `Keeps.append`; a single
  connection among others, and all connections in turn, are cases of it.

  Main statements:
    • `Keeps.append`     — side by side,
    • `keeps_between`    — one connection moves and its neighbours do not,
    • `keeps_moveAll`    — all connections move in turn,
    • `held_advance`     — removing spent connections removes no call.
-/
import RemoteCall.Proofs.Pool.Losing
import RemoteCall.Proofs.Pool.Run

namespace RemoteCall.Pool

/-! ## §1. Calls and where they belong. -/

/-- The calls that connections hold, each with the key of its connection. -/
def held (cs : List Connection) : List (ConnectionKey × PendingCall) :=
  cs.flatMap fun c => c.calls.map (c.key, ·)

/-- Those of the calls that have no outcome. -/
def stillOpen (l : Ledger) (xs : List (ConnectionKey × PendingCall)) :
    List (ConnectionKey × PendingCall) :=
  xs.filter fun x => l.isOpen x.2.id

/-- A call that is charged one retry, where it belongs. -/
def charged (x : ConnectionKey × PendingCall) : ConnectionKey × PendingCall :=
  (x.1, x.2.charged)

/-- A call as it was issued, where it belongs. -/
def issued (x : ConnectionKey × PendingCall) : ConnectionKey × PendingCall :=
  (x.1, x.2.issued)

variable {l l' l'' : Ledger} {xs ys : List (ConnectionKey × PendingCall)}

@[simp] theorem held_nil : held [] = [] := rfl

@[simp] theorem held_append (cs ds : List Connection) : held (cs ++ ds) = held cs ++ held ds := by
  simp [held]

@[simp] theorem held_cons (c : Connection) (cs : List Connection) :
    held (c :: cs) = c.calls.map (c.key, ·) ++ held cs := rfl

theorem mem_held {cs : List Connection} {x : ConnectionKey × PendingCall} :
    x ∈ held cs ↔ ∃ c ∈ cs, c.key = x.1 ∧ x.2 ∈ c.calls := by
  unfold held
  rw [List.mem_flatMap]
  constructor
  · rintro ⟨c, hc, hx⟩
    obtain ⟨call, hcall, rfl⟩ := List.mem_map.mp hx
    exact ⟨c, hc, rfl, hcall⟩
  · rintro ⟨c, hc, hkey, hcall⟩
    exact ⟨c, hc, List.mem_map.mpr ⟨x.2, hcall, by rw [hkey]⟩⟩

@[simp] theorem stillOpen_nil (l : Ledger) : stillOpen l [] = [] := rfl

@[simp] theorem stillOpen_append (l : Ledger) (xs ys : List (ConnectionKey × PendingCall)) :
    stillOpen l (xs ++ ys) = stillOpen l xs ++ stillOpen l ys :=
  List.filter_append xs ys

theorem mem_stillOpen {x : ConnectionKey × PendingCall} :
    x ∈ stillOpen l xs ↔ x ∈ xs ∧ l.isOpen x.2.id = true :=
  List.mem_filter

theorem stillOpen_perm (l : Ledger) (h : xs.Perm ys) : (stillOpen l xs).Perm (stillOpen l ys) :=
  h.filter _

theorem stillOpen_stillOpen (h : l.Grows l') (xs : List (ConnectionKey × PendingCall)) :
    stillOpen l' (stillOpen l xs) = stillOpen l' xs :=
  h.filter_isOpen (fun x : ConnectionKey × PendingCall => x.2.id) xs

theorem stillOpen_map (f : ConnectionKey × PendingCall → ConnectionKey × PendingCall)
    (hf : ∀ x, (f x).2.id = x.2.id) (l : Ledger) (xs : List (ConnectionKey × PendingCall)) :
    stillOpen l (xs.map f) = (stillOpen l xs).map f := by
  unfold stillOpen
  rw [List.filter_map]
  congr 1
  -- the selection is by the number, which stays
  apply List.filter_congr
  intro x _
  rw [Function.comp_apply, hf]

theorem stillOpen_map_charged (l : Ledger) (xs : List (ConnectionKey × PendingCall)) :
    stillOpen l (xs.map charged) = (stillOpen l xs).map charged :=
  stillOpen_map charged (fun _ => rfl) l xs

theorem stillOpen_map_key (l : Ledger) (key : ConnectionKey) (calls : List PendingCall) :
    stillOpen l (calls.map (key, ·)) = (l.unsettled calls).map (key, ·) := by
  unfold stillOpen Ledger.unsettled
  rw [List.filter_map]
  rfl

theorem stillOpen_eq_nil (h : ∀ x ∈ xs, l.isFinished x.2.id = true) : stillOpen l xs = [] := by
  unfold stillOpen Ledger.isOpen
  rw [List.filter_eq_nil_iff]
  intro x hx
  simp [h x hx]

/-! ## §2. Keeping. -/

/-- Between `(cs, l)` and `(cs', l')` no open call has been doubled or has changed its place, none
has been lost if `exact` holds, and those that are `paying` have been charged once. -/
structure Keeps (exact : Prop) (paying : List (ConnectionKey × PendingCall)) (cs : List Connection)
    (l : Ledger) (cs' : List Connection) (l' : Ledger) : Prop where
  grows : l.Grows l'
  split : ∃ others, (held cs).Perm (paying ++ others)
    ∧ PartOf exact (stillOpen l' (held cs'))
        ((stillOpen l' paying).map charged ++ stillOpen l' others)
  ids : ∀ x ∈ held cs', ∃ old ∈ held cs, old.2.id = x.2.id
  frame : ∀ {id}, id ∉ (held cs).map (·.2.id) → l'.get? id = l.get? id

variable {exact exact' : Prop} {paying paying' : List (ConnectionKey × PendingCall)}
  {cs cs' ds ds' : List Connection}

theorem Keeps.mono (h : Keeps exact paying cs l cs' l') (he : exact' → exact) :
    Keeps exact' paying cs l cs' l' := by
  obtain ⟨others, hold, hnew⟩ := h.split
  exact ⟨h.grows, ⟨others, hold, hnew.mono he⟩, h.ids, h.frame⟩

/-- What holds the same calls keeps them. -/
theorem keeps_of_held_eq (h : held cs' = held cs) (l : Ledger) : Keeps exact [] cs l cs' l := by
  refine ⟨Ledger.Grows.refl l, ⟨held cs, List.Perm.refl _, by rw [h]; exact .refl _⟩, ?_,
    fun _ => rfl⟩
  intro x hx
  exact ⟨x, h ▸ hx, rfl⟩

theorem Keeps.refl (cs : List Connection) (l : Ledger) : Keeps exact [] cs l cs l :=
  keeps_of_held_eq rfl l

/-- **Side by side**: some connections move, and then some others. -/
theorem Keeps.append (h : Keeps exact paying cs l cs' l')
    (h' : Keeps exact paying' ds l' ds' l'') :
    Keeps exact (paying ++ paying') (cs ++ ds) l (cs' ++ ds') l'' := by
  obtain ⟨others, hold, hnew⟩ := h.split
  obtain ⟨others', hold', hnew'⟩ := h'.split
  refine ⟨h.grows.trans h'.grows, ⟨others ++ others', ?_, ?_⟩, ?_, ?_⟩
  · rw [held_append]
    refine (hold.append hold').trans ?_
    rw [List.append_assoc, List.append_assoc]
    exact (List.perm_append_comm_assoc others paying' others').append_left paying
  · -- what the first ones keep open is selected once more by the last ledger
    have hlift : PartOf exact (stillOpen l'' _) (stillOpen l'' _) := hnew.filter _
    rw [stillOpen_stillOpen h'.grows, stillOpen_append, stillOpen_map_charged,
      stillOpen_stillOpen h'.grows, stillOpen_stillOpen h'.grows] at hlift
    rw [held_append, stillOpen_append, stillOpen_append, stillOpen_append, List.map_append]
    refine (hlift.append hnew').trans (.of_perm ?_)
    rw [List.append_assoc, List.append_assoc]
    exact (List.perm_append_comm_assoc _ _ _).append_left _
  · intro x hx
    rw [held_append, List.mem_append] at hx
    rcases hx with hx | hx
    · obtain ⟨old, hmem, heq⟩ := h.ids x hx
      exact ⟨old, by rw [held_append]; exact List.mem_append_left _ hmem, heq⟩
    · obtain ⟨old, hmem, heq⟩ := h'.ids x hx
      exact ⟨old, by rw [held_append]; exact List.mem_append_right _ hmem, heq⟩
  · intro id hid
    rw [held_append, List.map_append, List.mem_append, not_or] at hid
    exact (h'.frame hid.2).trans (h.frame hid.1)

/-- One connection. -/
theorem keeps_of_conserves {paying : List PendingCall} {c c' : Connection}
    (h : c.Conserves exact paying l c' l') : Keeps exact (paying.map (c.key, ·)) [c] l [c'] l' := by
  obtain ⟨others, hold, hnew⟩ := h.split
  have hone : ∀ c : Connection, held [c] = c.calls.map (c.key, ·) :=
    fun c => List.append_nil _
  refine ⟨h.grows, ⟨others.map (c.key, ·), ?_, ?_⟩, ?_, ?_⟩
  · rw [hone, ← List.map_append]
    exact hold.map _
  · rw [hone, h.key, stillOpen_map_key, stillOpen_map_key, stillOpen_map_key]
    -- the charged calls stay under the key of the connection
    have hmap := hnew.map (fun call => (c.key, call))
    rw [List.map_append, List.map_map] at hmap
    rw [List.map_map]
    exact hmap
  · intro x hx
    rw [hone] at hx
    obtain ⟨call, hcall, rfl⟩ := List.mem_map.mp hx
    obtain ⟨old, hmem, heq⟩ := h.ids call hcall
    exact ⟨(c.key, old), by rw [hone]; exact List.mem_map_of_mem hmem, heq⟩
  · intro id hid
    refine h.frame fun hmem => hid ?_
    rw [hone, List.map_map]
    exact hmem

/-- **One connection among others.** -/
theorem keeps_between {paying : List PendingCall} {c c' : Connection}
    (h : c.Conserves exact paying l c' l') (before after : List Connection) :
    Keeps exact (paying.map (c.key, ·)) (before ++ c :: after) l (before ++ c' :: after) l' := by
  have hone := keeps_of_conserves h
  have := (Keeps.refl before l).append (hone.append (Keeps.refl after l'))
  rw [List.append_nil] at this
  exact this

/-! ## §3. All connections in turn. -/

theorem moveAll_cons (f : Connection → Ledger → Moved) (c : Connection) (rest : List Connection)
    (l : Ledger) :
    moveAll f (c :: rest) l
      = ((f c l).connection :: (moveAll f rest (f c l).ledger).1,
          (moveAll f rest (f c l).ledger).2.1,
          (f c l).effects ++ (moveAll f rest (f c l).ledger).2.2) := rfl

/-- **All connections move in turn.** -/
theorem keeps_moveAll {f : Connection → Ledger → Moved} (pays : Connection → List PendingCall)
    (hf : ∀ {c l effects}, c.NumberedIn effects → (∀ call ∈ c.calls, l.knows call.id = true) →
      c.Conserves (HasRoom (effects ++ (f c l).effects)) (pays c) l (f c l).connection
          (f c l).ledger
        ∧ (f c l).connection.NumberedIn (effects ++ (f c l).effects))
    {cs : List Connection} {l : Ledger} {effects : List Effect}
    (hn : ∀ c ∈ cs, c.NumberedIn effects) (hk : ∀ x ∈ held cs, l.knows x.2.id = true) :
    Keeps (HasRoom (effects ++ (moveAll f cs l).2.2)) (cs.flatMap fun c => (pays c).map (c.key, ·))
        cs l (moveAll f cs l).1 (moveAll f cs l).2.1
      ∧ (∀ c ∈ (moveAll f cs l).1, c.NumberedIn (effects ++ (moveAll f cs l).2.2))
      ∧ (moveAll f cs l).1.map (·.key) = cs.map (·.key) := by
  induction cs generalizing l effects with
  | nil => exact ⟨Keeps.refl [] l, by simp [moveAll], rfl⟩
  | cons c rest ih =>
    rw [moveAll_cons]
    dsimp only
    rw [← List.append_assoc]
    -- the first one moves, and then the others with the ledger that it leaves
    have hkfirst : ∀ call ∈ c.calls, l.knows call.id = true :=
      fun call hmem => hk (c.key, call) (List.mem_append_left _ (List.mem_map_of_mem hmem))
    obtain ⟨hfirst, hnfirst⟩ := hf (hn c List.mem_cons_self) hkfirst
    obtain ⟨hrest, hnrest, hkeys⟩ := ih
      (fun d hd => (hn d (List.mem_cons_of_mem _ hd)).append (f c l).effects)
      (fun x hx => hfirst.grows.knows (hk x (List.mem_append_right _ hx)))
    -- what suffices for all of them suffices for the first
    refine ⟨((keeps_of_conserves hfirst).mono fun hroom => hroom.of_append).append hrest, ?_, ?_⟩
    · intro d hd
      rcases List.mem_cons.mp hd with rfl | hd
      · exact hnfirst.append _
      · exact hnrest d hd
    · rw [List.map_cons, List.map_cons, hfirst.key, hkeys]

/-! ## §4. Connections that hold no call. -/

/-- Removing connections that hold no call removes no call. -/
theorem held_filter {cs : List Connection} {keep : Connection → Bool}
    (h : ∀ c ∈ cs, keep c = false → c.calls = []) : held (cs.filter keep) = held cs := by
  induction cs with
  | nil => rfl
  | cons c rest ih =>
    have hrest := ih fun d hd => h d (List.mem_cons_of_mem _ hd)
    cases hkeep : keep c with
    | true => rw [List.filter_cons_of_pos hkeep, held_cons, held_cons, hrest]
    | false =>
      rw [List.filter_cons_of_neg (by simp [hkeep]), held_cons, hrest,
        h c List.mem_cons_self hkeep]
      rfl

theorem held_withConnection (p : Pool) (now : Time) (key : ConnectionKey) :
    held (p.withConnection now key).connections = held p.connections := by
  unfold withConnection
  split
  · rfl
  · dsimp only
    rw [held_append]
    exact List.append_nil _

/-- A connection that is spent holds no call. -/
theorem calls_of_isSpent_noteDemand {c : Connection} {config : PoolConfig} {now : Time}
    (h : (c.noteDemand now).isSpent config now = true) : (c.noteDemand now).calls = [] := by
  unfold Connection.noteDemand at h ⊢
  split at h
  · -- a connection in demand is never spent
    unfold Connection.isSpent at h
    exact absurd h (by simp)
  · next hidle =>
    have hempty : c.calls = [] := by
      unfold Connection.hasDemand at hidle
      unfold Connection.calls
      simp only [Bool.or_eq_true, not_or, Bool.not_eq_true', Bool.not_eq_false,
        List.isEmpty_iff] at hidle
      rw [hidle.1.2, hidle.2]
      rfl
    rw [if_neg hidle]
    split <;> exact hempty

end RemoteCall.Pool

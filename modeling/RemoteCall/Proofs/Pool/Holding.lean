/-
  RemoteCall.Proofs.Pool.Holding
  ──────────────────────────────
  **A CONNECTION NEITHER LOSES NOR DOUBLES A CALL.**

  Whatever happens to a connection, the calls that are open afterwards are the
  calls that it held before and that are still open, each as often as before.
  Some of them pay for what has happened by a retry; the others are what they
  were:

      calls c           ~  paying ++ others
      open' (calls c')  ~  charged (open' paying) ++ open' others

  Here `open'` selects by the ledger afterwards, so calls may leave a connection
  only by being settled (`Connection.Conserves`).  There is one lemma for each
  transition; this module has those by which the pool acts on its own, for which
  no call pays.  Only sending needs sequence numbers: when they run out, calls
  may be lost, but none is doubled even then.

  Main statements:
    • `conserves_expire`  — deadlines,
    • `conserves_flush`   — sending,
    • `conserves_advance` — whatever is due.
-/
import RemoteCall.Proofs.Pool.Numbering
import RemoteCall.Proofs.PartOf

namespace RemoteCall

/-! ## §1. Calls as they were issued, and open calls. -/

/-- A call as it was issued: not charged yet. -/
def PendingCall.issued (call : PendingCall) : PendingCall :=
  { call with retries := 0 }

/-- A call that is charged one retry. -/
def PendingCall.charged (call : PendingCall) : PendingCall :=
  { call with retries := call.retries + 1 }

@[simp] theorem PendingCall.id_charged (call : PendingCall) : call.charged.id = call.id := rfl

namespace Ledger

variable {l l' : Ledger}

@[simp] theorem unsettled_nil (l : Ledger) : l.unsettled [] = [] := rfl

@[simp] theorem unsettled_append (l : Ledger) (xs ys : List PendingCall) :
    l.unsettled (xs ++ ys) = l.unsettled xs ++ l.unsettled ys :=
  List.filter_append xs ys

theorem unsettled_cons_of_isFinished {call : PendingCall} (h : l.isFinished call.id = true)
    (rest : List PendingCall) : l.unsettled (call :: rest) = l.unsettled rest :=
  List.filter_cons_of_neg (by simp [h])

theorem mem_unsettled {call : PendingCall} {xs : List PendingCall} :
    call ∈ l.unsettled xs ↔ call ∈ xs ∧ l.isFinished call.id = false := by
  unfold unsettled
  rw [List.mem_filter]
  simp

theorem unsettled_perm (l : Ledger) {xs ys : List PendingCall} (h : xs.Perm ys) :
    (l.unsettled xs).Perm (l.unsettled ys) :=
  h.filter _

/-- What is open later is open among what is open now. -/
theorem Grows.unsettled (h : l.Grows l') (xs : List PendingCall) :
    l'.unsettled (l.unsettled xs) = l'.unsettled xs :=
  h.filter_isOpen (fun call : PendingCall => call.id) xs

theorem unsettled_eq_nil {xs : List PendingCall}
    (h : ∀ call ∈ xs, l.isFinished call.id = true) : l.unsettled xs = [] := by
  unfold unsettled
  rw [List.filter_eq_nil_iff]
  intro call hmem
  simp [h call hmem]

end Ledger

/-! ## §2. Conservation. -/

namespace Connection

/-- Between `(c, l)` and `(c', l')` no open call has been doubled, none has been lost if `exact`
holds, and those that are `paying` have been charged once. -/
structure Conserves (exact : Prop) (paying : List PendingCall) (c : Connection) (l : Ledger)
    (c' : Connection) (l' : Ledger) : Prop where
  key : c'.key = c.key
  grows : l.Grows l'
  split : ∃ others, c.calls.Perm (paying ++ others)
    ∧ PartOf exact (l'.unsettled c'.calls)
        ((l'.unsettled paying).map (·.charged) ++ l'.unsettled others)
  ids : ∀ call ∈ c'.calls, ∃ old ∈ c.calls, old.id = call.id
  frame : ∀ {id}, id ∉ c.calls.map (·.id) → l'.get? id = l.get? id

variable {exact exact' : Prop} {c c' c'' : Connection} {l l' l'' : Ledger}

/-- No call pays. -/
theorem conserves_of_part (hkey : c'.key = c.key) (hgrows : l.Grows l')
    (hpart : PartOf exact (l'.unsettled c'.calls) (l'.unsettled c.calls))
    (hids : ∀ call ∈ c'.calls, ∃ old ∈ c.calls, old.id = call.id)
    (hframe : ∀ {id}, id ∉ c.calls.map (·.id) → l'.get? id = l.get? id) :
    Conserves exact [] c l c' l' :=
  ⟨hkey, hgrows, ⟨c.calls, List.Perm.refl _, hpart⟩, hids, hframe⟩

theorem conserves_of_perm (hkey : c'.key = c.key) (hgrows : l.Grows l')
    (hperm : (l'.unsettled c'.calls).Perm (l'.unsettled c.calls))
    (hids : ∀ call ∈ c'.calls, ∃ old ∈ c.calls, old.id = call.id)
    (hframe : ∀ {id}, id ∉ c.calls.map (·.id) → l'.get? id = l.get? id) :
    Conserves exact [] c l c' l' :=
  conserves_of_part hkey hgrows (.of_perm hperm) hids hframe

theorem Conserves.part (h : Conserves exact [] c l c' l') :
    PartOf exact (l'.unsettled c'.calls) (l'.unsettled c.calls) := by
  obtain ⟨others, hold, hnew⟩ := h.split
  exact hnew.trans (.of_perm (l'.unsettled_perm hold.symm))

/-- Only the key and the calls of a connection count. -/
theorem Conserves.of_eq {paying : List PendingCall} {d : Connection}
    (h : Conserves exact paying d l c' l') (hkey : d.key = c.key) (hcalls : d.calls = c.calls) :
    Conserves exact paying c l c' l' :=
  ⟨h.key.trans hkey, h.grows, hcalls ▸ h.split, hcalls ▸ h.ids,
    fun hid => h.frame (by rw [hcalls]; exact hid)⟩

theorem Conserves.trans (h : Conserves exact [] c l c' l') (h' : Conserves exact [] c' l' c'' l'') :
    Conserves exact [] c l c'' l'' := by
  refine conserves_of_part (h'.key.trans h.key) (h.grows.trans h'.grows) ?_ ?_ ?_
  · have hold : PartOf exact (l''.unsettled (l'.unsettled c'.calls))
        (l''.unsettled (l'.unsettled c.calls)) := h.part.filter _
    rw [h'.grows.unsettled, h'.grows.unsettled] at hold
    exact h'.part.trans hold
  · intro call hmem
    obtain ⟨mid, hmid, heq⟩ := h'.ids call hmem
    obtain ⟨old, hold, heq'⟩ := h.ids mid hmid
    exact ⟨old, hold, heq'.trans heq⟩
  · -- a call that is not held at first is not held in between
    intro id hid
    refine (h'.frame fun hmem => hid ?_).trans (h.frame hid)
    obtain ⟨mid, hmid, rfl⟩ := List.mem_map.mp hmem
    obtain ⟨old, hold, heq⟩ := h.ids mid hmid
    exact List.mem_map.mpr ⟨old, hold, heq⟩

/-- What is not touched is conserved. -/
theorem conserves_of_calls_eq (hkey : c'.key = c.key) (hcalls : c'.calls = c.calls)
    (l : Ledger) : Conserves exact [] c l c' l := by
  refine conserves_of_perm hkey (Ledger.Grows.refl l) (by rw [hcalls]) ?_ fun _ => rfl
  intro call hmem
  exact ⟨call, hcalls ▸ hmem, rfl⟩

theorem inFlight_of_connected {live : Live} (h : c.phase = .connected live) :
    c.inFlight = live.calls := by
  unfold inFlight
  rw [h]

theorem calls_of_connected {live : Live} (h : c.phase = .connected live) :
    c.calls = live.calls ++ c.waiting :=
  congrArg (· ++ c.waiting) (inFlight_of_connected h)

theorem phase_of_live? {live : Live} (h : c.live? = some live) : c.phase = .connected live := by
  unfold live? at h
  split at h
  · next hphase => rw [hphase, Option.some.inj h]
  · exact absurd h (by simp)

theorem live?_of_phase {live : Live} (h : c.phase = .connected live) : c.live? = some live := by
  unfold live?
  rw [h]

theorem live?_of_ne (h : ∀ live, c.phase ≠ .connected live) : c.live? = none := by
  unfold live?
  split
  · next live hphase => exact absurd hphase (h live)
  · rfl

/-- During an attempt there is no link. -/
theorem live?_of_connecting {candidates : List PeerName} (h : c.phase = .connecting candidates) :
    c.live? = none :=
  live?_of_ne fun live hlive => by rw [h] at hlive; cases hlive

theorem calls_of_live?_eq_none (h : c.live? = none) : c.calls = c.waiting := by
  unfold calls inFlight
  split
  · next hphase => rw [live?_of_phase hphase] at h; exact absurd h (by simp)
  · rfl

/-! ## §3. Deadlines and connecting. -/

variable {env : Surroundings} {config : PoolConfig} {now : Time}

theorem ledger_expire (c : Connection) (l : Ledger) :
    (c.expire env now l).ledger = l.timeOut now (c.waiting ++ c.inFlight) := by
  unfold expire
  dsimp only
  split <;> rfl

/-- **Expiring keeps exactly what is open.** -/
theorem calls_expire (c : Connection) (l : Ledger) :
    (c.expire env now l).connection.calls = (c.expire env now l).ledger.unsettled c.calls := by
  rw [ledger_expire]
  unfold expire
  dsimp only
  split
  · next live hphase =>
    -- both the queue and the link let go of what has an outcome
    rw [calls_of_connected hphase, Ledger.unsettled_append]
    unfold calls inFlight Live.calls Live.forget
    dsimp only
    congr 1
    unfold Ledger.unsettled
    rw [List.filter_map]
    rfl
  · next hphase =>
    have hnone : c.live? = none := live?_of_ne hphase
    rw [calls_of_live?_eq_none hnone]
    exact calls_of_live?_eq_none hnone

theorem grows_expire (env : Surroundings) (now : Time) (c : Connection) (l : Ledger) :
    l.Grows (c.expire env now l).ledger := by
  rw [ledger_expire]
  exact Ledger.grows_timeOut l now _

/-- A deadline settles no call that the connection does not hold. -/
theorem get?_expire {c : Connection} {id : CallId} (h : id ∉ c.calls.map (·.id)) (l : Ledger) :
    (c.expire env now l).ledger.get? id = l.get? id := by
  rw [ledger_expire]
  refine Ledger.get?_timeOut_of_notMem (fun hmem => h ?_) l
  exact (List.perm_append_comm.map _).subset hmem

theorem key_expire (c : Connection) (l : Ledger) :
    (c.expire env now l).connection.key = c.key := by
  unfold expire
  dsimp only
  split <;> rfl

theorem conserves_expire (env : Surroundings) (now : Time) (c : Connection) (l : Ledger) :
    Conserves exact [] c l (c.expire env now l).connection (c.expire env now l).ledger := by
  refine conserves_of_perm (key_expire c l) (grows_expire env now c l) ?_ ?_
    fun hid => get?_expire hid l
  · rw [calls_expire, (Ledger.Grows.refl _).unsettled]
  · intro call hmem
    rw [calls_expire] at hmem
    exact ⟨call, (Ledger.mem_unsettled.mp hmem).1, rfl⟩

theorem conserves_backOff (config : PoolConfig) (now : Time) (c : Connection) (l : Ledger) :
    Conserves exact [] c l (c.backOff config now) l := by
  unfold backOff
  split
  · next e hphase =>
    refine conserves_of_calls_eq (by rfl) ?_ l
    unfold calls inFlight
    rw [hphase]
  · exact conserves_of_calls_eq (by rfl) (by rfl) l

theorem conserves_seek {c : Connection} (h : c.live? = none) (l : Ledger) :
    Conserves exact [] c l (c.seek env).1 l := by
  unfold seek
  split
  · exact conserves_of_calls_eq (by rfl) (by rfl) l
  · refine conserves_of_calls_eq (by rfl) ?_ l
    rw [calls_of_live?_eq_none h]
    rfl

theorem conserves_noteDemand (c : Connection) (l : Ledger) :
    Conserves exact [] c l (c.noteDemand now) l := by
  unfold noteDemand
  split
  · exact conserves_of_calls_eq (by rfl) (by rfl) l
  · split <;> exact conserves_of_calls_eq (by rfl) (by rfl) l

/-! ## §4. Sending. -/

/-- No two calls are in flight under one number.  As long as the numbers suffice, they are in order,
and no more were handed out than frames. -/
def NumberedIn (effects : List Effect) (c : Connection) : Prop :=
  ∀ live, c.phase = .connected live → live.Distinct
    ∧ (HasRoom effects → live.Numbered ∧ live.next.toNat ≤ handedOut live.link effects)

/-- More effects leave more room. -/
theorem NumberedIn.append {effects : List Effect} {c : Connection} (h : c.NumberedIn effects)
    (more : List Effect) : c.NumberedIn (effects ++ more) := by
  intro live hphase
  obtain ⟨hdistinct, hnumbered⟩ := h live hphase
  refine ⟨hdistinct, fun hroom => ?_⟩
  obtain ⟨hnumbered, hle⟩ := hnumbered hroom.of_append
  refine ⟨hnumbered, ?_⟩
  rw [handedOut_append]
  omega

theorem numberedIn_of_live?_eq_none {c : Connection} (h : c.live? = none)
    (effects : List Effect) : c.NumberedIn effects := by
  intro live hphase
  rw [live?_of_phase hphase] at h
  exact absurd h (by simp)

theorem flush_of_draining {c : Connection} {live : Live} (h : c.phase = .connected live)
    (hd : live.draining = true) (l : Ledger) : c.flush env config l = (c, []) := by
  unfold flush
  rw [h]
  dsimp only
  rw [if_pos hd]

theorem flush_of_connected {c : Connection} {live : Live} (h : c.phase = .connected live)
    (hd : live.draining = false) (l : Ledger) :
    c.flush env config l
      = ({ c with
            waiting := (live.flush env config c.key.interface l c.waiting).waiting
            phase := .connected (live.flush env config c.key.interface l c.waiting).live },
          (live.flush env config c.key.interface l c.waiting).effects) := by
  unfold flush
  rw [h]
  dsimp only
  rw [if_neg (by simp [hd])]

theorem flush_of_live?_eq_none {c : Connection} (h : c.live? = none) (l : Ledger) :
    c.flush env config l = (c, []) := by
  unfold flush
  split
  · next live hphase => rw [live?_of_phase hphase] at h; exact absurd h (by simp)
  · rfl

/-- **What becomes of the queue and of the link**: some calls leave the queue, and those of them
that are open are in flight, as long as the numbers suffice. -/
theorem NumberedIn.calls_flush {effects : List Effect} {c : Connection} (h : c.NumberedIn effects)
    {live : Live} (hlive : c.phase = .connected live) (env : Surroundings) (config : PoolConfig)
    (l : Ledger) :
    let flushed := live.flush env config c.key.interface l c.waiting
    flushed.live.Distinct
      ∧ (HasRoom (effects ++ flushed.effects) → flushed.live.Numbered
        ∧ flushed.live.next.toNat ≤ handedOut flushed.live.link (effects ++ flushed.effects))
      ∧ ∃ gone, c.waiting = gone ++ flushed.waiting
        ∧ flushed.live.calls.Sublist (live.calls ++ l.unsettled gone)
        ∧ (HasRoom (effects ++ flushed.effects) →
            flushed.live.calls = live.calls ++ l.unsettled gone) := by
  intro flushed
  obtain ⟨hdistinct, hnumbered⟩ := h live hlive
  obtain ⟨hdistinct', gone, hsplit, hsub⟩ :=
    hdistinct.calls_flush env config c.key.interface l c.waiting
  -- the link has been handed fewer than 2^64 frames, so the next numbers do not wrap
  have hfits : HasRoom (effects ++ flushed.effects) → live.Numbered
      ∧ live.next.toNat ≤ handedOut live.link effects
      ∧ live.next.toNat + handedOut live.link flushed.effects < 2 ^ 64 := by
    intro hroom
    obtain ⟨hordered, hle⟩ := hnumbered hroom.of_append
    have hlink := hroom live.link
    rw [handedOut_append] at hlink
    exact ⟨hordered, hle, by omega⟩
  refine ⟨hdistinct', fun hroom => ?_, gone, hsplit, hsub, fun hroom => ?_⟩
  · obtain ⟨hordered, hle, hlt⟩ := hfits hroom
    obtain ⟨hordered', hnext⟩ := hordered.flush hlt
    have hsame : flushed.live.link = live.link := Live.link_flush env config _ l c.waiting live
    refine ⟨hordered', ?_⟩
    rw [hsame, handedOut_append]
    have hnext' : flushed.live.next.toNat
        = live.next.toNat + handedOut live.link flushed.effects := hnext
    omega
  · obtain ⟨hordered, -, hlt⟩ := hfits hroom
    obtain ⟨gone', hsplit', hcalls⟩ := hordered.calls_flush hlt
    have hgone : gone' = gone := List.append_cancel_right (hsplit'.symm.trans hsplit)
    exact hgone ▸ hcalls

/-- **Sending invents no call and changes no order**, neither of all calls nor of those that
wait. -/
theorem NumberedIn.sublist_flush {effects : List Effect} {c : Connection}
    (h : c.NumberedIn effects) (env : Surroundings) (config : PoolConfig) (l : Ledger) :
    (c.flush env config l).1.calls.Sublist c.calls
      ∧ (c.flush env config l).1.waiting.Sublist c.waiting := by
  cases hphase : c.live? with
  | none =>
    rw [flush_of_live?_eq_none hphase]
    exact ⟨List.Sublist.refl _, List.Sublist.refl _⟩
  | some live =>
    have hlive := phase_of_live? hphase
    cases hd : live.draining with
    | true =>
      rw [flush_of_draining hlive hd]
      exact ⟨List.Sublist.refl _, List.Sublist.refl _⟩
    | false =>
      rw [flush_of_connected hlive hd, calls_of_connected hlive]
      dsimp only
      obtain ⟨-, -, gone, hsplit, hsub, -⟩ := h.calls_flush hlive env config l
      generalize live.flush env config c.key.interface l c.waiting = flushed at *
      rw [hsplit]
      refine ⟨?_, List.sublist_append_right _ _⟩
      rw [← List.append_assoc]
      exact (hsub.trans (List.filter_sublist.append_left _)).append_right _

/-- **Sending conserves the calls**, as long as the numbers suffice. -/
theorem conserves_flush {effects : List Effect} {c : Connection} (h : c.NumberedIn effects)
    (env : Surroundings) (config : PoolConfig) (l : Ledger) :
    Conserves (HasRoom (effects ++ (c.flush env config l).2)) [] c l (c.flush env config l).1 l
      ∧ (c.flush env config l).1.NumberedIn (effects ++ (c.flush env config l).2) := by
  cases hphase : c.live? with
  | none =>
    rw [flush_of_live?_eq_none hphase]
    exact ⟨conserves_of_calls_eq rfl rfl l, h.append []⟩
  | some live =>
    have hlive := phase_of_live? hphase
    cases hd : live.draining with
    | true =>
      rw [flush_of_draining hlive hd]
      exact ⟨conserves_of_calls_eq rfl rfl l, h.append []⟩
    | false =>
      have hids : ∀ call ∈ (c.flush env config l).1.calls, ∃ old ∈ c.calls, old.id = call.id :=
        fun call hmem => ⟨call, (h.sublist_flush env config l).1.subset hmem, rfl⟩
      rw [flush_of_connected hlive hd] at hids ⊢
      dsimp only
      obtain ⟨hdistinct, hnumbered, gone, hsplit, hsub, hall⟩ := h.calls_flush hlive env config l
      generalize live.flush env config c.key.interface l c.waiting = flushed at *
      -- what is open was in flight, leaves the queue, or still waits
      have hopen : l.unsettled c.calls
          = l.unsettled (live.calls ++ l.unsettled gone) ++ l.unsettled flushed.waiting := by
        rw [calls_of_connected hlive, hsplit, Ledger.unsettled_append, Ledger.unsettled_append,
          Ledger.unsettled_append, (Ledger.Grows.refl l).unsettled, List.append_assoc]
      refine ⟨conserves_of_part rfl (Ledger.Grows.refl l) ?_ hids fun _ => rfl, ?_⟩
      · show PartOf _ (l.unsettled (flushed.live.calls ++ flushed.waiting)) _
        rw [hopen, Ledger.unsettled_append]
        refine PartOf.append ⟨(hsub.filter _).subperm, fun hroom => ?_⟩ (.refl _)
        rw [hall hroom]
      · intro live' hphase'
        cases hphase'
        exact ⟨hdistinct, hnumbered⟩

theorem numberedIn_expire {effects : List Effect} {c : Connection} (h : c.NumberedIn effects)
    (l : Ledger) : (c.expire env now l).connection.NumberedIn effects := by
  unfold expire
  dsimp only
  split
  · next live hphase =>
    intro live' hphase'
    cases hphase'
    obtain ⟨hdistinct, hnumbered⟩ := h live hphase
    refine ⟨hdistinct.of_sublist List.filter_sublist, fun hroom => ?_⟩
    obtain ⟨hnumbered, hle⟩ := hnumbered hroom
    exact ⟨hnumbered.forget _, hle⟩
  · next hphase => exact fun live hlive => absurd hlive (hphase live)

theorem live?_backOff (config : PoolConfig) (now : Time) (c : Connection) :
    (c.backOff config now).live? = c.live? := by
  unfold backOff
  split
  · next e hphase =>
    unfold live?
    rw [hphase]
  · rfl

theorem live?_of_isDue {c : Connection} (h : c.isDue now = true) : c.live? = none := by
  cases hlive : c.live? with
  | none => rfl
  | some live =>
    -- a link is not due
    unfold isDue at h
    rw [phase_of_live? hlive] at h
    exact absurd h (by simp)

theorem numberedIn_of_live?_eq {effects : List Effect} (hlive : c'.live? = c.live?)
    (h : c.NumberedIn effects) : c'.NumberedIn effects := by
  intro live hphase
  exact h live (phase_of_live? (hlive ▸ live?_of_phase hphase))

theorem live?_seek {c : Connection} (h : c.live? = none) : (c.seek env).1.live? = none := by
  unfold seek
  split
  · exact h
  · rfl

/-- The connection in the middle of `advance`, when deadlines, backing off and connecting are
done. -/
def sought (env : Surroundings) (config : PoolConfig) (now : Time) (c : Connection) (l : Ledger) :
    Connection × List Effect :=
  let rested := (c.expire env now l).connection.backOff config now
  if rested.isDue now then rested.seek env else (rested, [])

theorem advance_eq (env : Surroundings) (config : PoolConfig) (now : Time) (c : Connection)
    (l : Ledger) :
    c.advance env config now l
      = { connection := ((c.sought env config now l).1.flush env config
            (c.expire env now l).ledger).1.noteDemand now
          ledger := (c.expire env now l).ledger
          effects := (c.expire env now l).effects ++ (c.sought env config now l).2
            ++ ((c.sought env config now l).1.flush env config (c.expire env now l).ledger).2 } :=
  rfl

theorem conserves_sought (env : Surroundings) (config : PoolConfig) (now : Time) (c : Connection)
    (l : Ledger) :
    Conserves exact [] c l (c.sought env config now l).1 (c.expire env now l).ledger := by
  have hrested : Conserves exact [] c l
      ((c.expire env now l).connection.backOff config now) (c.expire env now l).ledger :=
    (conserves_expire env now c l).trans (conserves_backOff config now _ _)
  unfold sought
  dsimp only
  split
  · next hdue => exact hrested.trans (conserves_seek (live?_of_isDue hdue) _)
  · exact hrested

theorem numberedIn_sought (env : Surroundings) (config : PoolConfig) (now : Time)
    {effects : List Effect} {c : Connection} (h : c.NumberedIn effects)
    (l : Ledger) : (c.sought env config now l).1.NumberedIn effects := by
  unfold sought
  dsimp only
  split
  · next hdue =>
    exact numberedIn_of_live?_eq_none (live?_seek (live?_of_isDue hdue)) effects
  · exact numberedIn_of_live?_eq (live?_backOff config now _) (numberedIn_expire h l)

/-- **Doing what is due conserves the calls.** -/
theorem conserves_advance {effects : List Effect} {c : Connection} (h : c.NumberedIn effects)
    (env : Surroundings) (config : PoolConfig) (now : Time) (l : Ledger) :
    Conserves (HasRoom (effects ++ (c.advance env config now l).effects)) [] c l
        (c.advance env config now l).connection (c.advance env config now l).ledger
      ∧ (c.advance env config now l).connection.NumberedIn
          (effects ++ (c.advance env config now l).effects) := by
  rw [advance_eq]
  dsimp only
  rw [← List.append_assoc]
  -- deadlines and connecting first, then sending, then the idle clock
  have hnumbered := numberedIn_sought env config now h l
  obtain ⟨hflush, hnumbered'⟩ := conserves_flush
    (hnumbered.append ((c.expire env now l).effects ++ (c.sought env config now l).2)) env config
    (c.expire env now l).ledger
  refine ⟨((conserves_sought env config now c l).trans hflush).trans (conserves_noteDemand _ _),
    ?_⟩
  refine numberedIn_of_live?_eq ?_ hnumbered'
  unfold noteDemand
  split
  · rfl
  · split <;> rfl

end Connection

end RemoteCall

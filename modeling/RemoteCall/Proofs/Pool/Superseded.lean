/-
  RemoteCall.Proofs.Pool.Superseded
  ─────────────────────────────────
  **REPORTS OF ATTEMPTS THAT ARE OVER.**

  An attempt to connect and the link that it leads to are known by a key and a
  number, and their reports come in whenever they like.  For as long as the
  connection for the key is there, its number only grows, and each attempt has
  a number of its own:

      seek key n  …  report (key, n)  …  seek key (n+1)  …  report (key, n)
                     acted on                               changes nothing

  When a connection is removed and another one takes its place, the numbers
  start again, and a report of the first may be taken for one of the second.

  Main statements:
    • `Run.attempt`                         — what becomes of an attempt,
    • `reports_of_superseded_attempts_change_nothing` — what a report may change,
    • `report_of_a_removed_connection_is_taken`       — numbers that start again.
-/
import RemoteCall.Proofs.Pool.OnePlace
import RemoteCall.Proofs.Pool.Succession

namespace RemoteCall.Pool

/-! ## §1. Attempts. -/

/-- What has become of an attempt: if its number is that of the connection, no other has been
started, and the peers are still tried or one of them has been reached. -/
structure AttemptOf (key : ConnectionKey) (generation : Nat) (candidates : List PeerName)
    (since : List Moment) (c : Connection) : Prop where
  le : generation ≤ c.generation
  latest : c.generation = generation →
    ∀ n peers, Effect.seek key n peers ∉ effectsOf since
  trying : c.generation = generation →
    ∀ peers, c.phase = .connecting peers → peers = candidates
  reached : c.generation = generation →
    ∀ live, c.phase = .connected live → Effect.attach key generation live.link ∈ effectsOf since

variable {config : PoolConfig} {history earlier since : List Moment} {p : Pool} {m : Moment}
  {key : ConnectionKey} {generation : Nat} {candidates : List PeerName}

/-- One step further. -/
theorem AttemptOf.next {c c' : Connection} (hkey : c.key = key)
    (h : AttemptOf key generation candidates since c) (hbecomes : c.Becomes m.effects c') :
    AttemptOf key generation candidates (since ++ [m]) c' := by
  subst hkey
  -- the number only grows, so if it is that of the attempt, it has been so before
  have hback : c'.generation = generation → c.generation = generation := by
    intro heq
    have hle := h.le
    rcases hbecomes.generation with hsame | hnext <;> omega
  refine ⟨?_, ?_, ?_, ?_⟩
  · have hle := h.le
    rcases hbecomes.generation with hsame | hnext <;> omega
  · intro heq n peers hmem
    rw [effectsOf_concat] at hmem
    rcases List.mem_append.mp hmem with hold | hnew
    · exact h.latest (hback heq) n peers hold
    · obtain ⟨hn, hn', -⟩ := hbecomes.sought n peers hnew
      have hgeneration := hback heq
      omega
  · intro heq peers hphase
    exact h.trying (hback heq) peers
      (hbecomes.connecting peers hphase (heq.trans (hback heq).symm))
  · intro heq live hphase
    rw [effectsOf_concat, List.mem_append]
    obtain ⟨-, ⟨old, hold, hfollows⟩ | ⟨peer, link, rfl, hmem⟩⟩ := hbecomes.connected live hphase
    · rw [hfollows.link]
      exact .inl (h.reached (hback heq) old hold)
    · rw [hback heq] at hmem
      exact .inr hmem

/-- **What becomes of an attempt**, for as long as the connection is there. -/
theorem Run.attempt (run : Run config history p) (hsplit : history = earlier ++ m :: since)
    (hseek : .seek key generation candidates ∈ m.effects)
    (hkept : ∀ m ∈ since, (m.before.connection? key).isSome = true) {c : Connection}
    (hc : p.connection? key = some c) : AttemptOf key generation candidates since c := by
  have hbegin := (run.at_split hsplit).1
  refine run.follow_kept key (AttemptOf key generation candidates) ?_ AttemptOf.next hsplit hkept hc
  intro c' hc'
  obtain ⟨c, hc, hbecomes⟩ := hbegin.accounts.tidy.connection?_of_attempt hseek rfl hc'
  rw [← (mem_of_connection? hc).2] at hseek
  obtain ⟨rfl, hgeneration, hphase⟩ := hbecomes.sought _ _ hseek
  refine ⟨Nat.le_of_eq hgeneration.symm, fun _ _ _ => List.not_mem_nil, ?_, ?_⟩
  · intro _ peers hpeers
    rw [hphase] at hpeers
    cases hpeers
    rfl
  · intro _ live hlive
    rw [hphase] at hlive
    cases hlive

/-! ## §2. Reports. -/

/-- Without an attempt or a link, no report is taken. -/
theorem attend_of_idle (hkeys : (p.connections.map (·.key)).Nodup) {c : Connection}
    (hc : c ∈ p.connections) (first : Notice)
    (hconnecting : ∀ peers, c.phase ≠ .connecting peers)
    (hconnected : ∀ live, c.phase ≠ .connected live) :
    p.attend c first = (p, dropNotice first) := by
  have hattended := attended p c first
  generalize p.attend c first = stepped at *
  generalize c.paysForNotice p.config p.ledger first = paying at *
  cases hattended with
  | attached hphase => exact absurd hphase (hconnecting _)
  | attemptFailed hphase => exact absurd hphase (hconnecting _)
  | linkFailed hphase => exact absurd hphase (hconnected _)
  | @responded _ _ frame =>
    have hresponded := Connection.responded p.config frame c p.ledger
    generalize c.respond p.config frame p.ledger = moved at *
    cases hresponded with
    | ignored _ => exact settle_self hkeys hc
    | dropped hphase _ => exact absurd hphase (hconnected _)
    | delivered hfinds | retried hfinds | unreadable hfinds | refused hfinds | rejected hfinds
    | failed hfinds => exact absurd hfinds.phase (hconnected _)
  | dropped => rfl

/-- **A report changes nothing, or its number is that of an attempt or a link.** -/
theorem notice_cases (hkeys : (p.connections.map (·.key)).Nodup) (first : Notice) :
    p.notice first = (p, dropNotice first)
      ∨ ∃ c, p.connection? first.key = some c ∧ c.generation = first.generation
        ∧ ((∃ peers, c.phase = .connecting peers) ∨ ∃ live, c.phase = .connected live) := by
  unfold Pool.notice
  cases hfind : p.connection? first.key with
  | none => exact .inl rfl
  | some c =>
    dsimp only
    split
    · next hgeneration =>
      have hidle := attend_of_idle hkeys (mem_of_connection? hfind).1 first
      cases hphase : c.phase with
      | connecting peers => exact .inr ⟨c, rfl, hgeneration, .inl ⟨peers, hphase⟩⟩
      | connected live => exact .inr ⟨c, rfl, hgeneration, .inr ⟨live, hphase⟩⟩
      | disconnected t => exact .inl (hidle (by simp [hphase]) (by simp [hphase]))
      | errored e => exact .inl (hidle (by simp [hphase]) (by simp [hphase]))
    · exact .inl rfl

/-- The attempt that a notice belongs to is current: no other attempt has been started since, and
the connection tries the same peers or has reached one of them. -/
structure IsCurrent (key : ConnectionKey) (generation : Nat) (candidates : List PeerName)
    (since : List Moment) (p : Pool) : Prop where
  latest : ∀ n peers, Effect.seek key n peers ∉ effectsOf since
  connection : ∃ c, p.connection? key = some c ∧ c.generation = generation
    ∧ (c.phase = .connecting candidates
      ∨ ∃ live, c.phase = .connected live
        ∧ .attach key generation live.link ∈ effectsOf since)

/-- **Reports of superseded attempts change nothing.**  For as long as the connection for its key is
there, a report changes something only if the attempt that it comes from is current. -/
theorem reports_of_superseded_attempts_change_nothing (run : Run config history p)
    (hsplit : history = earlier ++ m :: since) (first : Notice)
    (hseek : .seek first.key first.generation candidates ∈ m.effects)
    (hkept : ∀ m ∈ since, (m.before.connection? first.key).isSome = true)
    (env : Surroundings) (now : Time) :
    p.after (.look env now (.notice first))
        = ({ p with notices := p.notices.tail }, dropNotice first)
      ∨ IsCurrent first.key first.generation candidates since p := by
  have hkeys : (({ p with notices := p.notices.tail } : Pool).connections.map (·.key)).Nodup :=
    run.accounts.tidy.keys
  refine (notice_cases hkeys first).imp_right ?_
  rintro ⟨c, hfind, hgeneration, hphase⟩
  have hattempt := run.attempt hsplit hseek hkept hfind
  refine ⟨hattempt.latest hgeneration, c, hfind, hgeneration, ?_⟩
  rcases hphase with ⟨peers, hpeers⟩ | ⟨live, hlive⟩
  · exact .inl (hattempt.trying hgeneration peers hpeers ▸ hpeers)
  · exact .inr ⟨live, hlive, hattempt.reached hgeneration live hlive⟩

section OneAttempt

/-- The report that the agent has been reached. -/
def oneReport : Notice := .connected oneAgent 1 (.unix ⟨"/a"⟩) 9

/-- A handle is taken, the agent is sought and reached, and the report is the attempt's own. -/
theorem reports_of_superseded_attempts_change_nothing_when_reached :
    ∃ (earlier since : List Moment) (m : Moment) (p : Pool), Run {} (earlier ++ m :: since) p
      ∧ .seek oneAgent 1 [.unix ⟨"/a"⟩] ∈ m.effects
      ∧ (∀ m ∈ since, (m.before.connection? oneAgent).isSome = true)
      ∧ (p.after (.look oneAddress 0 (.notice oneReport))).2 = [.attach oneAgent 1 9]
      ∧ IsCurrent oneAgent 1 [.unix ⟨"/a"⟩] since p := by
  have start : Run {} [] { config := {}, subscription := ⟨0⟩ } :=
    Run.start (show Pool.new {} {} = _ from rfl)
  have taken := (start.next (.send (.acquire oneAgent)) trivial).next
    (.look oneAddress 0 (.command (.acquire oneAgent))) ⟨rfl, rfl⟩
  have sought := taken.next (.advance oneAddress 0) trivial
  have reported := sought.next (.report oneReport) trivial
  have hkept : ∀ (q : Pool) (event : Event), (q.connection? oneAgent).isSome = true →
      ∀ m ∈ [Moment.mk q event], (m.before.connection? oneAgent).isSome = true := by
    intro q event hsome m hm
    rw [List.mem_singleton.mp hm]
    exact hsome
  refine ⟨[_, _], [_], _, _, reported, List.mem_singleton_self _, hkept _ _ rfl, rfl, ?_⟩
  rcases reports_of_superseded_attempts_change_nothing reported
    (List.append_assoc _ [_] [_]) oneReport (List.mem_singleton_self _) (hkept _ _ rfl) oneAddress 0
    with hnothing | hcurrent
  · -- the link is taken, and not closed
    have heffects : [Effect.attach oneAgent 1 9] = [.close 9] := congrArg Prod.snd hnothing
    cases heffects
  · exact hcurrent

/-- **Numbers start again.**  A connection is removed while its attempt goes on, and another one is
added for the same key.  The attempt of the second has the number of the first, so the link that the
first has reached is taken for its own. -/
theorem report_of_a_removed_connection_is_taken :
    ∃ (earlier between : List Moment) (m m' : Moment) (p : Pool),
      Run { expiryTime := 0 } (earlier ++ m :: between ++ [m']) p
        ∧ .seek oneAgent 1 [.unix ⟨"/a"⟩] ∈ m.effects
        ∧ (∃ reported ∈ between, reported.event = .report oneReport)
        ∧ .seek oneAgent 1 [.unix ⟨"/a"⟩] ∈ m'.effects
        ∧ p.Admits (earlier ++ m :: between ++ [m']) (.look oneAddress 0 (.notice oneReport))
        ∧ (p.after (.look oneAddress 0 (.notice oneReport))).2 = [.attach oneAgent 1 9] := by
  have start : Run { expiryTime := 0 } []
      { config := { expiryTime := 0 }, subscription := ⟨0⟩ } :=
    Run.start (show Pool.new { expiryTime := 0 } {} = _ from rfl)
  have taken := (start.next (.send (.acquire oneAgent)) trivial).next
    (.look oneAddress 0 (.command (.acquire oneAgent))) ⟨rfl, rfl⟩
  have sought := taken.next (.advance oneAddress 0) trivial
  -- the agent is reached when the connection is not wanted any more
  have dropped := ((sought.next (.report oneReport) trivial).next
    (.send (.release oneAgent)) trivial).next
      (.look oneAddress 0 (.command (.release oneAgent))) ⟨rfl, rfl⟩
  have removed := dropped.next (.advance oneAddress 0) trivial
  have again := ((removed.next (.send (.acquire oneAgent)) trivial).next
    (.look oneAddress 0 (.command (.acquire oneAgent))) ⟨rfl, rfl⟩).next
      (.advance oneAddress 0) trivial
  refine ⟨[_, _], [_, _, _, _, _, _], _, _, _, again, List.mem_singleton_self _,
    ⟨_, List.mem_cons_self, rfl⟩, List.mem_singleton_self _, ⟨rfl, rfl⟩, rfl⟩

end OneAttempt

end RemoteCall.Pool
